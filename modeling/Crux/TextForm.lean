import Mathlib.Data.List.Basic

/-!
# Text forms

Values written as text so that they are read back whatever follows them.
-/

namespace Crux

/-- A text form of values that can be read back with whatever follows. -/
structure TextForm (α : Type) where
  put : α → List Char
  get : List Char → Option (α × List Char)
  back : ∀ a rest, get (put a ++ rest) = some (a, rest)

namespace TextForm

/-- A number as so many strokes. -/
def getStrokes : List Char → Option (Nat × List Char)
  | '|' :: rest => (getStrokes rest).map fun (n, rest) => (n + 1, rest)
  | '.' :: rest => some (0, rest)
  | _ => none

theorem getStrokes_back (n : Nat) (rest : List Char) : getStrokes (List.replicate n '|' ++ '.' :: rest) = some (n, rest) := by
  induction n with
  | zero => rfl
  | succ n ih =>
    change (getStrokes (List.replicate n '|' ++ '.' :: rest)).map _ = _
    rw [ih]
    rfl

def strokes : TextForm Nat where
  put n := List.replicate n '|' ++ ['.']
  get := getStrokes
  back n rest := by
    rw [List.append_assoc]
    exact getStrokes_back n rest

def text : TextForm String where
  put s := strokes.put s.toList.length ++ s.toList
  get cs := (strokes.get cs).map fun (n, rest) => (String.ofList (rest.take n), rest.drop n)
  back s rest := by
    rw [List.append_assoc, strokes.back]
    simp

/-- Two values one after the other. -/
def pair {α β : Type} (first : TextForm α) (second : TextForm β) : TextForm (α × β) where
  put p := first.put p.1 ++ second.put p.2
  get cs := (first.get cs).bind fun (a, rest) => (second.get rest).map fun (b, rest) => ((a, b), rest)
  back p rest := by
    rw [List.append_assoc, first.back]
    change (second.get (second.put p.2 ++ rest)).map _ = _
    rw [second.back]
    rfl

/-- Values that go over into others and come back. -/
def via {α β : Type} (form : TextForm α) (there : β → α) (home : α → β) (inverse : ∀ b, home (there b) = b) : TextForm β where
  put b := form.put (there b)
  get cs := (form.get cs).map fun (a, rest) => (home a, rest)
  back b rest := by
    rw [form.back]
    exact congrArg (fun b => some (b, rest)) (inverse b)

/-- As many values as the strokes in front say. -/
def getMany {α : Type} (form : TextForm α) : Nat → List Char → Option (List α × List Char)
  | 0, cs => some ([], cs)
  | n + 1, cs => (form.get cs).bind fun (a, rest) => (getMany form n rest).map fun (as, rest) => (a :: as, rest)

theorem getMany_back {α : Type} (form : TextForm α) (list : List α) (rest : List Char) :
    getMany form list.length (list.flatMap form.put ++ rest) = some (list, rest) := by
  induction list with
  | nil => rfl
  | cons a list ih =>
    rw [List.flatMap_cons, List.append_assoc, List.length_cons]
    unfold getMany
    rw [form.back]
    change (getMany form list.length (list.flatMap form.put ++ rest)).map _ = _
    rw [ih]
    rfl

def many {α : Type} (form : TextForm α) : TextForm (List α) where
  put list := strokes.put list.length ++ list.flatMap form.put
  get cs := (strokes.get cs).bind fun (n, rest) => getMany form n rest
  back list rest := by
    rw [List.append_assoc, strokes.back, Option.bind_some]
    exact getMany_back form list rest

def option {α : Type} (form : TextForm α) : TextForm (Option α) :=
  form.many.via Option.toList List.head? fun o => by cases o <;> rfl

def integer : TextForm Int :=
  (strokes.pair strokes).via (fun t => (t.toNat, (-t).toNat)) (fun p => (p.1 : Int) - p.2) fun t => by omega

end TextForm

end Crux
