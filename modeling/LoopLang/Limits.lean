/-!
# Limits

A text, a tree and a program may be nested, and what is nested is followed by going deeper. How
deep that can go is not for a text to say, so it is told to whoever reads or writes.
-/
namespace LoopLang

structure Limits where
  /-- How deep a text may be nested to be read. -/
  reading : Nat
  /-- How many levels less that are while reading is traced: telling of a step goes deeper than
  the step itself. -/
  tracing : Nat
  /-- How many levels a tree may have to be written out. -/
  writing : Nat

namespace Limits

/-- The levels that a reader follows, which may be tracing. -/
def depth (limits : Limits) (tracing : Bool) : Nat :=
  if tracing then limits.reading - limits.tracing else limits.reading

theorem depth_le (limits : Limits) (tracing : Bool) : limits.depth tracing ≤ limits.reading := by
  unfold depth
  split
  · exact Nat.sub_le ..
  · exact Nat.le_refl _

def standard : Limits :=
  ⟨328, 2, 950⟩

end Limits

end LoopLang
