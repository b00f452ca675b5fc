import Micro68.Microprogram.Arithmetic
import Micro68.Microprogram.Control
import Micro68.Microprogram.Dialogue
import Micro68.Microprogram.Movement

/-! The micro-program of every operation. -/
namespace Micro68

def Instruction.execute {κ : Type} [Console κ] (i : Instruction) : Micro κ Unit :=
  match i.opcode with
  | .add => Microprogram.combine Alu.add i
  | .addq => Microprogram.combineQuick Alu.add i
  | .sub => Microprogram.combine Alu.sub i
  | .subq => Microprogram.combineQuick Alu.sub i
  | .muls => Microprogram.multiply i
  | .divs => Microprogram.divide i
  | .neg => Microprogram.change Alu.neg i
  | .clr => Microprogram.clear i
  | .not => Microprogram.complement i
  | .and => Microprogram.combine Alu.and i
  | .or => Microprogram.combine Alu.or i
  | .eor => Microprogram.combine Alu.eor i
  | .lsl => Microprogram.combineQuick Alu.lsl i
  | .lsr => Microprogram.combineQuick Alu.lsr i
  | .rol => Microprogram.combineQuick Alu.rol i
  | .ror => Microprogram.combineQuick Alu.ror i
  | .cmp => Microprogram.compare Alu.sub i
  | .tst => Microprogram.test i
  | .bra | .bvs | .beq | .bcs | .bge | .ble => Microprogram.branch i
  | .move => Microprogram.move i
  | .moveq => Microprogram.moveQuick i
  | .exg => Microprogram.exchange i
  | .movea => Microprogram.moveAddress i
  | .inp => Microprogram.input i
  | .dsp => Microprogram.display i
  | .dsr => Microprogram.displayStatus
  | .hlt => Microprogram.halt

end Micro68
