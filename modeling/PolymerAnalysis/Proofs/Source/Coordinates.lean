import PolymerAnalysis.Proofs.Text.Lines
import PolymerAnalysis.Source.Document
import Mathlib.Data.List.Induction

namespace PolymerAnalysis

namespace Position

variable {p q start stop : Position}

def next (p : Position) (c : CodePoint) : Position :=
  if c = '\n' then ⟨p.line + 1, 0⟩ else ⟨p.line, p.column + 1⟩

def after (p : Position) (t : Text) : Position := t.foldl next p

@[simp] theorem after_nil (p : Position) : p.after [] = p := rfl

@[simp] theorem after_cons (p : Position) (c : CodePoint) (t : Text) : p.after (c :: t) = (p.next c).after t := rfl

theorem after_append (p : Position) (t u : Text) : p.after (t ++ u) = (p.after t).after u := List.foldl_append

theorem line_next (h : 0 ≤ p.line) (c : CodePoint) : 0 ≤ (p.next c).line := by
  rw [next]
  split
  · change 0 ≤ p.line + 1
    omega
  · exact h

/-- Behind the first line the shift of a column does not matter, and on it it adds up. -/
theorem shift_next (h : 0 ≤ p.line) (c : CodePoint) (offset : Option Offset) :
    (p.next c).shift offset = (p.shift offset).next c := by
  cases offset with
  | none => rfl
  | some o =>
    simp only [shift, next]
    split
    · have hline : ¬p.line + 1 = 0 := by omega
      simp only [hline, if_false, mk.injEq, and_true]
      omega
    · simp only [mk.injEq, true_and]
      split <;> omega

theorem shift_after (h : 0 ≤ p.line) (t : Text) (offset : Option Offset) :
    (p.after t).shift offset = (p.shift offset).after t := by
  induction t generalizing p with
  | nil => rfl
  | cons c t ih => rw [after_cons, after_cons, ih (line_next h c), shift_next h]

/-- A shift to `q` takes the beginning of a text there. -/
theorem shift_begin (q : Position) (file : Option Text) : shift ⟨0, 0⟩ (some ⟨q.line, q.column, file⟩) = q := by
  simp [shift]

theorem le_iff : p.le q = true ↔ p.line < q.line ∨ p.line = q.line ∧ p.column ≤ q.column := by
  simp [le]

theorem le_refl (p : Position) : p.le p = true := le_iff.2 (.inr ⟨rfl, Int.le_refl _⟩)

theorem le_trans {r : Position} (h : p.le q = true) (h' : q.le r = true) : p.le r = true := by
  rw [le_iff] at h h' ⊢
  omega

theorem le_next (h : q.le p = true) (c : CodePoint) : q.le (p.next c) = true := by
  rw [le_iff] at h ⊢
  rw [next]
  split
  · change q.line < p.line + 1 ∨ _
    omega
  · change q.line < p.line ∨ q.line = p.line ∧ q.column ≤ p.column + 1
    omega

theorem not_le_of_next_le {c : CodePoint} (h : (p.next c).le q = true) : q.le p = false := by
  rw [← Bool.not_eq_true, le_iff]
  rw [le_iff, next] at h
  split at h
  · change p.line + 1 < q.line ∨ p.line + 1 = q.line ∧ 0 ≤ q.column at h
    omega
  · change p.line < q.line ∨ p.line = q.line ∧ p.column + 1 ≤ q.column at h
    omega

theorem le_after (h : q.le p = true) (t : Text) : q.le (p.after t) = true := by
  induction t generalizing p with
  | nil => exact h
  | cons c t ih => exact ih (le_next h c)

end Position

namespace Text

variable {p start stop : Position}

/-- The code points from `start` up to `stop` of a text that begins at `p`. -/
def excerpt (start stop : Position) (p : Position) : Text → Text
  | [] => []
  | c :: cs =>
    if start.le p && !stop.le p then c :: excerpt start stop (p.next c) cs else excerpt start stop (p.next c) cs

theorem excerpt_append (start stop p : Position) (t u : Text) :
    excerpt start stop p (t ++ u) = excerpt start stop p t ++ excerpt start stop (p.after t) u := by
  induction t generalizing p with
  | nil => rfl
  | cons c t ih =>
    simp only [List.cons_append, excerpt, ih, Position.after_cons]
    split <;> rfl

theorem excerpt_before (t : Text) (h : (p.after t).le start = true) : excerpt start stop p t = [] := by
  induction t generalizing p with
  | nil => rfl
  | cons c t ih =>
    have hnext : (p.next c).le start = true := Position.le_trans (Position.le_after (Position.le_refl _) t) h
    have hfirst : start.le p = false := Position.not_le_of_next_le hnext
    rw [excerpt, hfirst, Bool.false_and, if_neg Bool.false_ne_true, ih h]

theorem excerpt_within (t : Text) (h : start.le p = true) : excerpt start (p.after t) p t = t := by
  induction t generalizing p with
  | nil => rfl
  | cons c t ih =>
    have hfirst : (p.after (c :: t)).le p = false :=
      Position.not_le_of_next_le (Position.le_after (Position.le_refl _) t)
    rw [excerpt, h, hfirst, Position.after_cons, ih (Position.le_next h c)]
    rfl

theorem excerpt_behind (t : Text) (h : stop.le p = true) : excerpt start stop p t = [] := by
  induction t generalizing p with
  | nil => rfl
  | cons c t ih =>
    rw [excerpt, h, ih (Position.le_next h c)]
    simp

/-- The range from the first to the last position of a piece covers this piece. -/
theorem excerpt_middle (p : Position) (before t behind : Text) :
    excerpt (p.after before) (p.after (before ++ t)) p (before ++ t ++ behind) = t := by
  have hbehind : (p.after (before ++ t)).le (p.after (before ++ t)) = true := Position.le_refl _
  rw [excerpt_append, excerpt_append, excerpt_before before (Position.le_refl _), excerpt_behind behind hbehind,
    Position.after_append, excerpt_within t (Position.le_refl _), List.nil_append, List.append_nil]

@[simp] theorem byteSize_nil : byteSize [] = 0 := rfl

@[simp] theorem byteSize_cons (c : CodePoint) (t : Text) : byteSize (c :: t) = c.utf8Size + byteSize t := rfl

@[simp] theorem byteSize_append (t u : Text) : byteSize (t ++ u) = byteSize t + byteSize u := by
  induction t with
  | nil => simp
  | cons c t ih =>
    rw [List.cons_append, byteSize_cons, byteSize_cons, ih]
    omega

theorem byteSize_cons_ne_zero (c : CodePoint) (t : Text) : byteSize (c :: t) ≠ 0 := by
  have hpos := c.utf8Size_pos
  rw [byteSize_cons]
  omega

theorem takeBytes_byteSize (t u : Text) : takeBytes t.byteSize (t ++ u) = t := by
  induction t with
  | nil => cases u <;> rfl
  | cons c t ih =>
    rw [List.cons_append, takeBytes, if_neg (byteSize_cons_ne_zero c t), byteSize_cons, Nat.add_sub_cancel_left, ih]

def nextPoint (p : Point) (c : CodePoint) : Point :=
  if c = '\n' then ⟨p.row + 1, 0⟩ else ⟨p.row, p.column + c.utf8Size⟩

theorem pointFrom_byteSize (p : Point) (t u : Text) : pointFrom p t.byteSize (t ++ u) = t.foldl nextPoint p := by
  induction t generalizing p with
  | nil => cases u <;> rfl
  | cons c t ih =>
    rw [List.cons_append, pointFrom, if_neg (byteSize_cons_ne_zero c t), byteSize_cons, Nat.add_sub_cancel_left, ih]
    rfl

/-- Where a text has been read up to some place, `x` of the line at hand has been read. -/
theorem read_lines (t u : Text) :
    ∃ x line rest, u.lines = line :: rest ∧ (t ++ u).lines.drop (t.foldl nextPoint ⟨0, 0⟩).row = (x ++ line) :: rest ∧
      (t.foldl nextPoint ⟨0, 0⟩).column = x.byteSize ∧
      Position.after ⟨0, 0⟩ t = ⟨(t.foldl nextPoint ⟨0, 0⟩).row, x.length⟩ := by
  induction t using List.reverseRecOn generalizing u with
  | nil =>
    obtain ⟨line, rest, hlines⟩ := exists_lines u
    exact ⟨[], line, rest, hlines, hlines, rfl, rfl⟩
  | append_singleton t c ih =>
    obtain ⟨x, line, rest, hlines, hdrop, hcolumn, hposition⟩ := ih (c :: u)
    obtain ⟨line', rest', hlines'⟩ := exists_lines u
    rw [Position.after_append, hposition, List.foldl_append, List.append_assoc, List.singleton_append]
    simp only [List.foldl_cons, List.foldl_nil, nextPoint, Position.after_cons, Position.after_nil, Position.next]
    by_cases hc : c = '\n'
    · rw [hc, lines_newline] at hlines
      obtain ⟨rfl, rfl⟩ := List.cons.inj hlines
      refine ⟨[], line', rest', hlines', ?_, ?_, ?_⟩
      · rw [if_pos hc, List.nil_append, ← hlines', ← List.drop_drop, hdrop]
        rfl
      · rw [if_pos hc]
        rfl
      · rw [if_pos hc, if_pos hc]
        rfl
    · rw [lines_cons hc hlines'] at hlines
      obtain ⟨rfl, rfl⟩ := List.cons.inj hlines
      refine ⟨x ++ [c], line', rest', hlines', ?_, ?_, ?_⟩
      · rw [if_neg hc, hdrop, List.append_assoc]
        rfl
      · rw [if_neg hc, hcolumn]
        simp
      · rw [if_neg hc, if_neg hc, List.length_append]
        rfl

/-- The position of a byte offset between two code points is the one that the text before it ends at. -/
theorem position_point (t u : Text) : (t ++ u).position ((t ++ u).point t.byteSize) = Position.after ⟨0, 0⟩ t := by
  obtain ⟨x, line, rest, -, hdrop, hcolumn, hposition⟩ := read_lines t u
  have hline : (t ++ u).lines[(t.foldl nextPoint ⟨0, 0⟩).row]? = some (x ++ line) := by
    rw [← List.head?_drop, hdrop, List.head?_cons]
  rw [point, pointFrom_byteSize, position, hline, hposition, hcolumn]
  simp only [takeBytes_byteSize]

end Text

end PolymerAnalysis
