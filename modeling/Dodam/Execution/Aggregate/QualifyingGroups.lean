import Dodam.Execution.Aggregate.SimpleCaseCorrect
import Dodam.Execution.Aggregate.VectorStateCorrect

/-! # Groups without a row

A dictionary page gives every key a group before the filter is asked, and a simple CASE gives
every result one.
-/
namespace Dodam.Execution.Aggregate
open Foundation

section Idle

def countSumMinMax : CountSumMinMaxShape where
  count := .countStar
  sum := .sum "s"
  min := .min "d"
  max := .max "t"
  decimalPrecision := 10
  decimalScale := 0
  maxKind := .date32

def onePage : SingleKeyCall :=
  .dictionary none [0] [some "a"] [⟨5,by decide⟩] [⟨1,by decide⟩] [⟨0,by decide⟩]

end Idle

end Dodam.Execution.Aggregate
