import SourceAudit.Monitor.Log
import SourceAudit.Proofs.Computation

/-!
# Entries of a log

An entry is a stamp in brackets, a blank, the message and a line feed.
-/

open List

namespace SourceAudit.Outside

def isClockChar (c : Char) : Bool :=
  c.isDigit || c == '-' || c == ':'

def Moment.isClocked (m : Moment) : Bool :=
  [m.date, m.time, m.fraction].all fun part => part.toList.all isClockChar

def isStampChar (c : Char) : Bool :=
  isClockChar c || c == ' ' || c == '.'

namespace Moment

variable {m : Moment} {c : Char}

theorem isStampChar_of_mem (clocked : m.isClocked = true)
    (hm : c ∈ m.milliseconds.toList) : isStampChar c = true := by
  have part : ∀ t ∈ [m.date, m.time, m.fraction], c ∈ t.toList → isStampChar c = true := by
    intro t hl hi
    have clockChar := all_eq_true.mp (all_eq_true.mp clocked t hl) c hi
    simp [isStampChar, clockChar]
  simp only [milliseconds, Str.take, String.toList_append, mem_append, String.toList_ofList] at hm
  rcases hm with (((inDate | isBlank) | inTime) | isPoint) | inFraction
  · apply part m.date _ inDate
    simp
  · obtain rfl : c = ' ' := by simpa using isBlank
    decide
  · apply part m.time _ inTime
    simp
  · obtain rfl : c = '.' := by simpa using isPoint
    decide
  · apply part m.fraction _ (mem_of_mem_take inFraction)
    simp

theorem notMem_milliseconds (clocked : m.isClocked = true)
    (hfor : isStampChar c = false) : c ∉ m.milliseconds.toList := by
  intro hm
  rw [isStampChar_of_mem clocked hm] at hfor
  cases hfor

end Moment

end SourceAudit.Outside

namespace SourceAudit.Monitor

open Outside

theorem toList_entryAt (m : Moment) (msg : String) :
    (entryAt m msg).toList =
      '[' :: (m.milliseconds.toList ++ ']' :: ' ' :: (msg.toList ++ ['\n'])) := by
  simp [entryAt, String.toList_append]

end SourceAudit.Monitor
