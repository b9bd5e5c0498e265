import Crux.Bytes

/-!
Text files of lines: where a file is cut into lines, what is left after the last
newline, and the search for that place from the end in blocks.
-/

namespace Crux.TextLines
open Crux.Bytes List

/-- The lines of a file that end with a newline, and what stands after the last newline. -/
def splitLines : Bytes → List Bytes × Bytes
  | [] => ([], [])
  | b :: rest =>
    if b = 10 then ([] :: (splitLines rest).1, (splitLines rest).2)
    else
      match (splitLines rest).1 with
      | [] => ([], b :: (splitLines rest).2)
      | line :: lines => ((b :: line) :: lines, (splitLines rest).2)

def joinLines (lines : List Bytes) : Bytes := lines.flatMap fun line => line ++ [10]

theorem joinLines_cons (line : Bytes) (lines : List Bytes) : joinLines (line :: lines) = line ++ 10 :: joinLines lines := by
  simp [joinLines]

theorem joinLines_append (lines more : List Bytes) : joinLines (lines ++ more) = joinLines lines ++ joinLines more :=
  flatMap_append

variable {tail : Bytes}

theorem splitLines_tail (unbroken : 10 ∉ tail) : splitLines tail = ([], tail) := by
  induction tail with
  | nil => rfl
  | cons b rest ih =>
    rw [mem_cons, not_or] at unbroken
    unfold splitLines
    rw [if_neg (Ne.symm unbroken.1), ih unbroken.2]

theorem splitLines_line {line : Bytes} (unbroken : 10 ∉ line) (rest : Bytes) :
    splitLines (line ++ 10 :: rest) = (line :: (splitLines rest).1, (splitLines rest).2) := by
  induction line with
  | nil =>
    rw [nil_append, splitLines, if_pos rfl]
  | cons b line ih =>
    rw [mem_cons, not_or] at unbroken
    rw [cons_append, splitLines, if_neg (Ne.symm unbroken.1), ih unbroken.2]

theorem splitLines_join {lines : List Bytes} (unbroken : ∀ line ∈ lines, 10 ∉ line) {tail : Bytes} (last : 10 ∉ tail) :
    splitLines (joinLines lines ++ tail) = (lines, tail) := by
  induction lines with
  | nil => exact splitLines_tail last
  | cons line rest ih =>
    rw [joinLines_cons, append_assoc, cons_append, splitLines_line (unbroken line mem_cons_self),
      ih fun l later => unbroken l (mem_cons_of_mem _ later)]

/-- A carriage return before the newline does not belong to the line. -/
def stripReturn (line : Bytes) : Bytes := if line.getLast? = some 13 then line.dropLast else line

/-- `BufRead::lines`: the last line need not end with a newline. -/
def fileLines (file : Bytes) : List Bytes :=
  (splitLines file).1.map stripReturn ++ if (splitLines file).2.isEmpty then [] else [(splitLines file).2]

theorem fileLines_join {lines : List Bytes} (plain : ∀ line ∈ lines, ∀ b ∈ line, 32 ≤ b) (last : 10 ∉ tail) :
    fileLines (joinLines lines ++ tail) = lines ++ if tail.isEmpty then [] else [tail] := by
  have unbroken : ∀ line ∈ lines, 10 ∉ line := fun line member there => absurd (plain line member 10 there) (by decide)
  have stripped : lines.map stripReturn = lines := by
    rw [map_congr_left (g := id), map_id]
    intro line member
    unfold stripReturn
    rw [if_neg, id]
    intro ended
    exact absurd (plain line member 13 (mem_of_getLast? ended)) (by decide)
  unfold fileLines
  rw [splitLines_join unbroken last, stripped]

/-- A cut of a file of lines leaves some lines whole and a part of the next. -/
theorem take_joinLines (lines : List Bytes) (n : Nat) :
    ∃ k tail, (joinLines lines).take n = joinLines (lines.take k) ++ tail ∧ k ≤ lines.length ∧
      (tail = [] ∨ ∃ line, lines[k]? = some line ∧ ∃ j, j ≤ line.length ∧ tail = line.take j) := by
  induction lines generalizing n with
  | nil => exact ⟨0, [], by simp [joinLines], le_rfl, .inl rfl⟩
  | cons line rest ih =>
    rw [joinLines_cons]
    by_cases inside : n ≤ line.length
    · refine ⟨0, line.take n, ?_, Nat.zero_le _, .inr ⟨line, rfl, n, inside, rfl⟩⟩
      rw [take_append_of_le_length inside]
      rfl
    · obtain ⟨k, tail, cut, few, part⟩ := ih (n - line.length - 1)
      refine ⟨k + 1, tail, ?_, Nat.succ_le_succ few, ?_⟩
      · have after : n = line.length + (n - line.length - 1 + 1) := by omega
        rw [after, take_length_add_append, take_succ_cons, cut, take_succ_cons, joinLines_cons]
        simp
      · exact part

/-- The place of the last newline of a block. -/
def lastNewline (block : Bytes) : Option Nat :=
  (block.reverse.findIdx? fun b => b = 10).map fun i => block.length - 1 - i

/-- The search for the last newline, by blocks of a width from a place towards the start of the file. -/
def scanTail (width : Nat) (file : Bytes) : Nat → Nat → Nat
  | 0, _ => 0
  | fuel + 1, cursor =>
    if cursor = 0 then 0
    else
      match lastNewline ((file.take cursor).drop (cursor - width)) with
      | some index => cursor - width + index + 1
      | none => scanTail width file fuel (cursor - width)

theorem lastNewline_none {block : Bytes} (unbroken : 10 ∉ block) : lastNewline block = none := by
  unfold lastNewline
  rw [Option.map_eq_none_iff, findIdx?_eq_none_iff]
  intro b member
  rw [mem_reverse] at member
  simp
  rintro rfl
  exact unbroken member

theorem lastNewline_some {front back : Bytes} (unbroken : 10 ∉ back) : lastNewline (front ++ 10 :: back) = some front.length := by
  have none : back.reverse.findIdx? (fun b => decide (b = 10)) = none := by
    rw [findIdx?_eq_none_iff]
    intro b member
    rw [mem_reverse] at member
    simp
    rintro rfl
    exact unbroken member
  have first : (10 :: front.reverse).findIdx? (fun b => decide (b = 10)) = some 0 := by simp [findIdx?_cons]
  unfold lastNewline
  rw [reverse_append, reverse_cons, append_assoc, singleton_append, findIdx?_append, none, first]
  simp

/-- The search ends after the last newline, wherever in the tail it begins. -/
theorem scanTail_eq {width : Nat} (some_width : 0 < width) {front : Bytes} (unbroken : 10 ∉ tail)
    (ends : front = [] ∨ ∃ a, front = a ++ [10]) {fuel cursor : Nat} (enough : cursor ≤ fuel) (low : front.length ≤ cursor) (high : cursor ≤ (front ++ tail).length) :
    scanTail width (front ++ tail) fuel cursor = front.length := by
  induction fuel generalizing cursor with
  | zero =>
    have none : front.length = 0 := by omega
    rw [none, scanTail]
  | succ fuel ih =>
    unfold scanTail
    by_cases done : cursor = 0
    · rw [if_pos done]
      omega
    · rw [if_neg done]
      have upto : (front ++ tail).take cursor = front ++ tail.take (cursor - front.length) := by
        rw [take_append, take_of_length_le low]
      have unbroken' : 10 ∉ tail.take (cursor - front.length) := fun there => unbroken (mem_of_mem_take there)
      rw [upto]
      by_cases before : front.length ≤ cursor - width
      · -- the block lies in the tail
        have inside : 10 ∉ (front ++ tail.take (cursor - front.length)).drop (cursor - width) := by
          intro there
          rw [drop_append, drop_of_length_le before, nil_append] at there
          exact unbroken' (mem_of_mem_drop there)
        rw [lastNewline_none inside]
        exact ih (by omega) before (by omega)
      · rcases ends with rfl | ⟨a, rfl⟩
        · exact absurd (Nat.zero_le _) before
        · rw [length_append, length_singleton] at before low ⊢
          have small : cursor - width ≤ a.length := by omega
          rw [append_assoc, singleton_append, drop_append_of_le_length small, lastNewline_some]
          · dsimp only
            rw [length_drop]
            omega
          · rw [length_append, length_singleton] at unbroken'
            exact unbroken'

end Crux.TextLines
