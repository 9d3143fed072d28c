import Mathlib.Data.List.Basic
import Mathlib.Tactic.Common

namespace Plex86.Logic

universe u
variable {α : Type u} [DecidableEq α]

/-- Text with a line break before each character that its line has no room for,
where `column` characters are on the line already. The newline that ends a line
counts as one of its characters. -/
def wrap (limit : Nat) (newline : α) : Nat → List α → List α
  | _, [] => []
  | column, c :: text =>
      if limit ≤ column then
        newline :: c :: wrap limit newline (if c = newline then 0 else 1) text
      else c :: wrap limit newline (if c = newline then 0 else column + 1) text

/-- Breaking lines neither drops nor moves any character of the text. -/
theorem wrap_keeps (limit : Nat) (newline : α) (column : Nat) (text : List α) :
    (wrap limit newline column text).filter (· ≠ newline) = text.filter (· ≠ newline) := by
  induction text generalizing column with
  | nil => rfl
  | cons c text inductionHypothesis =>
      unfold wrap
      split
      · rw [List.filter_cons_of_neg (by simp), List.filter_cons, inductionHypothesis,
          List.filter_cons]
      · rw [List.filter_cons, inductionHypothesis, List.filter_cons]

/-- Complete lines, with the newlines that end them, and the line being filled. -/
structure Terminal (α : Type u) where
  lines : List (List α) := []
  held : List α := []

namespace Terminal

variable {limit : Nat} {newline c : α} {term : Terminal α}

/-- All that the terminal has been given, as it is laid out. -/
def text (term : Terminal α) : List α := term.lines.flatten ++ term.held

/-- End the line. -/
def finish (newline : α) (term : Terminal α) : Terminal α where
  lines := term.lines ++ [term.held ++ [newline]]

/-- Begin a new line where the present one is full. -/
def makeRoom (limit : Nat) (newline : α) (term : Terminal α) : Terminal α :=
  if limit ≤ term.held.length then term.finish newline else term

/-- Add a character to the line. -/
def add (newline c : α) (term : Terminal α) : Terminal α :=
  if c = newline then term.finish newline else { term with held := term.held ++ [c] }

def put (limit : Nat) (newline : α) (term : Terminal α) (c : α) : Terminal α :=
  (term.makeRoom limit newline).add newline c

def feed (limit : Nat) (newline : α) (term : Terminal α) (text : List α) : Terminal α :=
  text.foldl (put limit newline) term

omit [DecidableEq α] in
@[simp] theorem finish_held : (term.finish newline).held = [] := rfl

omit [DecidableEq α] in
@[simp] theorem finish_text : (term.finish newline).text = term.text ++ [newline] := by
  simp [text, finish]

theorem add_text : (term.add newline c).text = term.text ++ [c] := by
  unfold add
  split
  · next same =>
    rw [finish_text, same]
  · simp [text]

theorem add_held_length :
    (term.add newline c).held.length = if c = newline then 0 else term.held.length + 1 := by
  unfold add
  split
  · rfl
  · simp

theorem put_of_full (full : limit ≤ term.held.length) :
    put limit newline term c = (term.finish newline).add newline c := by
  rw [put, makeRoom, if_pos full]

theorem put_of_room (room : ¬ limit ≤ term.held.length) :
    put limit newline term c = term.add newline c := by
  rw [put, makeRoom, if_neg room]

theorem feed_append (term : Terminal α) (first second : List α) :
    feed limit newline term (first ++ second) =
      feed limit newline (feed limit newline term first) second :=
  List.foldl_append

/-- What is shown is the text fed, broken into lines. -/
theorem feed_text (term : Terminal α) (text : List α) :
    (feed limit newline term text).text =
      term.text ++ wrap limit newline term.held.length text := by
  induction text generalizing term with
  | nil => simp [feed, wrap]
  | cons c text inductionHypothesis =>
      have step := inductionHypothesis (put limit newline term c)
      rw [feed, List.foldl_cons, ← feed, step, wrap]
      by_cases full : limit ≤ term.held.length
      · rw [if_pos full, put_of_full full, add_text, add_held_length, finish_text, finish_held]
        simp
      · rw [if_neg full, put_of_room full, add_text, add_held_length]
        simp

end Terminal
end Plex86.Logic
