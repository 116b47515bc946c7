import PolymerAnalysis.Proofs.Keyed
import PolymerAnalysis.Proofs.Syntax.Evaluation

namespace PolymerAnalysis

open Text

/-- The characters after which a script goes on in the next line. -/
def CodePoint.isTerminator (c : CodePoint) : Bool := [0x0A, 0x0D, 0x2028, 0x2029].contains c.val

/-- The terminators that may stand in a string without a backslash. -/
def CodePoint.isSeparator (c : CodePoint) : Bool := [0x2028, 0x2029].contains c.val

def CodePoint.isEscapable (c : CodePoint) : Bool := !c.isDigit && !c.isTerminator && c ≠ 'x' && c ≠ 'u'

inductive LineEnd where
  | lineFeed
  | carriageReturn
  | carriageReturnLineFeed
  | lineSeparator
  | paragraphSeparator
deriving DecidableEq

def LineEnd.text : LineEnd → Text
  | lineFeed => ['\n']
  | carriageReturn => ['\r']
  | carriageReturnLineFeed => ['\r', '\n']
  | lineSeparator => ['\u2028']
  | paragraphSeparator => ['\u2029']

namespace Literal

/-- A character of a literal or an escape sequence that strings and templates have in common. -/
inductive Piece where
  | plain (c : CodePoint)
  /-- A backslash before one character. -/
  | escaped (c : CodePoint) (h : c.isEscapable)
  | null
  | byte (digits : Text) (code : CodePoint) (h : digits.length = 2 ∧ Numeral.value? 16 digits = some code.val)
  | unit (digits : Text) (code : CodePoint) (h : digits.length = 4 ∧ Numeral.value? 16 digits = some code.val)
  | point (digits : Text) (code : CodePoint) (h : Numeral.value? 16 digits = some code.val)
  /-- A backslash at the end of a line. -/
  | continued (lineEnd : LineEnd)
deriving DecidableEq

namespace Piece

def IsEscape : Piece → Prop
  | plain _ => False
  | _ => True

def escapedCode (c : CodePoint) : CodePoint :=
  if c = 'b' then ⟨0x08, by decide⟩
  else if c = 't' then ⟨0x09, by decide⟩
  else if c = 'n' then ⟨0x0A, by decide⟩
  else if c = 'v' then ⟨0x0B, by decide⟩
  else if c = 'f' then ⟨0x0C, by decide⟩
  else if c = 'r' then ⟨0x0D, by decide⟩
  else c

/-- The text that a piece stands for in a script. Halves of surrogate pairs are kept apart. -/
def value : Piece → Text
  | plain c => [c]
  | escaped c _ => [escapedCode c]
  | null => [⟨0, by decide⟩]
  | byte _ code _ => [code]
  | unit _ code _ => [code]
  | point _ code _ => [code]
  | continued _ => []

def written : Piece → Text
  | plain c => [c]
  | escaped c _ => ['\\', c]
  | null => ['\\', '0']
  | byte digits _ _ => '\\' :: 'x' :: digits
  | unit digits _ _ => '\\' :: 'u' :: digits
  | point digits _ _ => '\\' :: 'u' :: '\x7b' :: (digits ++ [.ofChar '\x7d'])
  | continued lineEnd => '\\' :: lineEnd.text

/-- What is read of a piece. A line or paragraph separator stays where a line goes on. -/
def read : Piece → Text
  | continued .lineSeparator => ['\u2028']
  | continued .paragraphSeparator => ['\u2029']
  | p => p.value

end Piece

/-- The pieces that a node of a literal stands for. A carriage return or a question mark behind a backslash makes one
node with a separator that follows it. -/
inductive Stands : Node → List Piece → Prop
  | fragment {n : Node} (cs : Text) (hkind : n.kind = "string_fragment") (htext : n.text = cs) : Stands n (cs.map .plain)
  | escape {n : Node} (p : Piece) (hp : p.IsEscape) (hkind : n.kind = "escape_sequence") (htext : n.text = p.written) :
      Stands n [p]
  | joined {n : Node} (p : Piece) (c : CodePoint) (hp : p = .continued .carriageReturn ∨ ∃ h, p = .escaped '?' h)
      (hc : c.isSeparator) (hkind : n.kind = "escape_sequence") (htext : n.text = p.written ++ [c]) :
      Stands n [p, .plain c]

/-- What is read of the pieces that one node stands for. A separator is lost behind a carriage return. -/
def readAll : List Piece → Text
  | [.continued .carriageReturn, .plain _] => []
  | ps => ps.flatMap Piece.read

theorem escape_escaped {c : CodePoint} (h : c.isEscapable) :
    escape ['\\', c] = .ok [Piece.escapedCode c] := by
  have hzero : c ≠ '0' := fun heq ↦ by rw [heq] at h; exact absurd h (by decide)
  have hreturn : c ≠ '\r' := fun heq ↦ by rw [heq] at h; exact absurd h (by decide)
  have hfeed : c ≠ '\n' := fun heq ↦ by rw [heq] at h; exact absurd h (by decide)
  by_cases hnamed : c ∈ (['b', 't', 'n', 'v', 'f', 'r'] : Text)
  · simp only [List.mem_cons, List.not_mem_nil, or_false] at hnamed
    rcases hnamed with rfl | rfl | rfl | rfl | rfl | rfl <;> rfl
  · simp only [List.mem_cons, List.not_mem_nil, or_false, not_or] at hnamed
    obtain ⟨hb, ht, hn, hv, hf, hr⟩ := hnamed
    have hlookup : simpleEscapes.lookup c = none := by
      rw [simpleEscapes, Keyed.lookup_cons_ne hn, Keyed.lookup_cons_ne ht, Keyed.lookup_cons_ne hr,
        Keyed.lookup_cons_ne hb, Keyed.lookup_cons_ne hf, Keyed.lookup_cons_ne hv, Keyed.lookup_cons_ne hzero]
      rfl
    rw [Piece.escapedCode, if_neg hb, if_neg ht, if_neg hn, if_neg hv, if_neg hf, if_neg hr]
    simp [escape, hlookup, hreturn, hfeed]

theorem hexEscape_of_value? {sequence digits : Text} {code : CodePoint} (h : Numeral.value? 16 digits = some code.val) :
    hexEscape sequence digits = .ok [code] := by
  have hcode : CodePoint.ofNat? code.val = some code := dif_pos code.isLt
  rw [hexEscape, h]
  simp only [hcode]

theorem escape_written (p : Piece) (hp : p.IsEscape) : escape p.written = .ok p.read := by
  cases p with
  | plain c => exact absurd hp id
  | escaped c h => exact escape_escaped h
  | null => rfl
  | byte digits code h =>
    have hne : digits ≠ [] := fun heq ↦ by rw [heq] at h; exact absurd h.1 (by decide)
    exact (escape_x hne).trans (hexEscape_of_value? h.2)
  | unit digits code h =>
    have hne : digits ≠ [] := fun heq ↦ by rw [heq] at h; exact absurd h.1 (by decide)
    have hbrace (t : Text) : digits ≠ .ofChar '\x7b' :: (t ++ [.ofChar '\x7d']) := fun heq ↦ by
      have hvalue := h.2
      rw [heq, value?_brace] at hvalue
      cases hvalue
    exact (escape_u hbrace hne).trans (hexEscape_of_value? h.2)
  | point digits code h => exact (escape_brace _ digits).trans (hexEscape_of_value? h)
  | continued lineEnd => cases lineEnd <;> rfl

theorem readAll_single (p : Piece) : readAll [p] = p.read := by
  rw [readAll, List.flatMap_singleton]
  rintro _ ⟨⟩

theorem readAll_plain (cs : Text) : readAll (cs.map .plain) = cs := by
  have hread : (cs.map Piece.plain).flatMap Piece.read = cs := by
    rw [List.flatMap_map]
    exact List.flatMap_singleton' cs
  rw [readAll]
  · exact hread
  · intro c h
    cases cs with
    | nil => cases h
    | cons d cs => cases h

theorem escape_joined {p : Piece} {c : CodePoint} (hp : p = .continued .carriageReturn ∨ ∃ h, p = .escaped '?' h) :
    escape (p.written ++ [c]) = .ok (readAll [p, .plain c]) := by
  rcases hp with rfl | ⟨h, rfl⟩ <;> rfl

/-- A node is read as the pieces that it stands for are. -/
theorem string_cons_of_stands {n : Node} {ps : List Piece} (hn : n.named) (h : Stands n ps) (ns : List Node) :
    string (n :: ns) = (readAll ps ++ ·) <$> string ns := by
  have hhead : (if n.kind = "escape_sequence" then escape n.text else .ok n.text) = .ok (readAll ps) := by
    cases h with
    | fragment cs hkind htext => rw [if_neg (by rw [hkind]; decide), htext, readAll_plain]
    | escape p hp hkind htext => rw [if_pos hkind, htext, escape_written p hp, readAll_single]
    | joined p c hp hc hkind htext => rw [if_pos hkind, htext, escape_joined hp]
  rw [string, if_pos hn, hhead]
  rfl

theorem string_of_stands {ns : List Node} {tokens : List (List Piece)}
    (h : List.Forall₂ Stands (ns.filter (·.named)) tokens) : string ns = .ok (tokens.flatMap readAll) := by
  induction ns generalizing tokens with
  | nil =>
    cases h
    rfl
  | cons n ns ih =>
    by_cases hn : n.named
    · rw [List.filter_cons_of_pos hn] at h
      cases h with
      | cons hfirst hrest =>
        rw [string_cons_of_stands hn hfirst, ih hrest]
        rfl
    · rw [List.filter_cons_of_neg hn] at h
      rw [string, if_neg hn, ih h]
      rfl

/-- No line goes on behind a separator, and none behind a carriage return that a separator follows. -/
structure Readable (ps : List Piece) : Prop where
  lineSeparator : .continued .lineSeparator ∉ ps
  paragraphSeparator : .continued .paragraphSeparator ∉ ps
  carriageReturn : ∀ c : CodePoint, c.isSeparator → ¬[.continued .carriageReturn, .plain c] <:+: ps

theorem Readable.read {ps : List Piece} (h : Readable ps) : ps.flatMap Piece.read = ps.flatMap Piece.value := by
  refine List.flatMap_congr fun p hp ↦ ?_
  cases p with
  | continued lineEnd =>
    cases lineEnd with
    | lineSeparator => exact absurd hp h.lineSeparator
    | paragraphSeparator => exact absurd hp h.paragraphSeparator
    | lineFeed | carriageReturn | carriageReturnLineFeed => rfl
  | plain | escaped | null | byte | unit | point => rfl

theorem Readable.readAll {n : Node} {ps qs : List Piece} (h : Readable qs) (hn : Stands n ps) (hps : ps <:+: qs) :
    readAll ps = ps.flatMap Piece.read := by
  cases hn with
  | fragment cs =>
    rw [readAll_plain, List.flatMap_map]
    exact (List.flatMap_singleton' cs).symm
  | escape p => rw [readAll_single, List.flatMap_singleton]
  | joined p c hp hc =>
    rcases hp with rfl | ⟨h', rfl⟩
    · exact absurd hps (h.carriageReturn c hc)
    · rfl

theorem Readable.read_tokens {ns : List Node} {tokens : List (List Piece)} {qs : List Piece} (h : Readable qs)
    (hns : List.Forall₂ Stands ns tokens) (hqs : tokens.flatten <:+: qs) :
    tokens.flatMap Literal.readAll = tokens.flatten.flatMap Piece.read := by
  induction hns with
  | nil => rfl
  | @cons n ps ns tokens hn _ ih =>
    rw [List.flatten_cons] at hqs
    have hfirst : ps <:+: qs := (List.prefix_append ps tokens.flatten).isInfix.trans hqs
    have hrest : tokens.flatten <:+: qs := (List.suffix_append ps tokens.flatten).isInfix.trans hqs
    rw [List.flatMap_cons, List.flatten_cons, List.flatMap_append, h.readAll hn hfirst, ih hrest]

theorem Piece.length_value_lt {p : Piece} (hp : p.IsEscape) : p.value.length < p.written.length := by
  cases p with
  | plain c => exact absurd hp id
  | escaped | null | byte | unit | point => simp [value, written]
  | continued lineEnd => simp [value, written]

theorem Piece.written_of_plain {p : Piece} (hp : ¬p.IsEscape) : p.written = p.value := by
  cases p with
  | plain c => rfl
  | escaped | null | byte | unit | point | continued => exact absurd trivial hp

theorem length_value_le (ps : List Piece) : (ps.flatMap Piece.value).length ≤ (ps.flatMap Piece.written).length := by
  induction ps with
  | nil => exact Nat.le_refl _
  | cons p ps ih =>
    rw [List.flatMap_cons, List.flatMap_cons, List.length_append, List.length_append]
    by_cases hp : p.IsEscape
    · have hlt := Piece.length_value_lt hp
      omega
    · rw [Piece.written_of_plain hp]
      omega

/-- Only a text without escape sequences means what is written. -/
theorem written_eq_value_iff (ps : List Piece) :
    ps.flatMap Piece.written = ps.flatMap Piece.value ↔ ∀ p ∈ ps, ¬p.IsEscape := by
  constructor
  · intro h p hp hescape
    obtain ⟨before, behind, rfl⟩ := List.append_of_mem hp
    have hlength := congrArg List.length h
    simp only [List.flatMap_append, List.flatMap_cons, List.length_append] at hlength
    have hbefore := length_value_le before
    have hbehind := length_value_le behind
    have hlt := Piece.length_value_lt hescape
    omega
  · exact fun h ↦ List.flatMap_congr fun p hp ↦ Piece.written_of_plain (h p hp)

end Literal

namespace Node

open Literal

variable {n s t : Node} {ps : List Piece} {tokens : List (List Piece)}

def IsString (n : Node) (tokens : List (List Piece)) : Prop :=
  n.kind = "string" ∧ List.Forall₂ Stands n.namedChildren tokens

def IsTemplate (n : Node) (ps : List Piece) : Prop :=
  n.kind = "template_string" ∧ n.text = .ofChar '\x60' :: (ps.flatMap Piece.written ++ [.ofChar '\x60']) ∧
    ∃ tokens, List.Forall₂ Stands n.namedChildren tokens ∧ tokens.flatten = ps

theorem evaluate_template (h : n.kind = "template_string") : n.evaluate = .ok
    (if n.namedChildren.any (·.kind = "template_substitution") then .unevaluated n.text
    else .text (n.text.drop 1).dropLast) := by
  cases n
  cases h
  rw [evaluate]
  simp only [namedChildren, children, text, String.reduceEq, if_false, if_true, List.any_filter]

theorem no_substitution {ns : List Node} (h : List.Forall₂ Stands ns tokens) :
    ns.any (·.kind = "template_substitution") = false := by
  induction h with
  | nil => rfl
  | cons hn _ ih =>
    rw [List.any_cons, ih, Bool.or_false]
    cases hn with
    | fragment _ hkind | escape _ _ hkind | joined _ _ _ _ hkind => rw [hkind]; decide

theorem IsTemplate.evaluate (h : t.IsTemplate ps) : t.evaluate = .ok (.text (ps.flatMap Piece.written)) := by
  obtain ⟨hkind, htext, tokens, htokens, -⟩ := h
  rw [evaluate_template hkind, no_substitution htokens, htext]
  simp

/-- A string has the text that it stands for in a script, but for separators in it that a backslash or a carriage return
behind one stands before. A template has the text as it is written, which is the same just without escape sequences. -/
theorem literals_denote (hs : s.IsString tokens) (ht : t.IsTemplate tokens.flatten) :
    Literal.string s.children = .ok (tokens.flatMap readAll) ∧
      (Readable tokens.flatten → Literal.string s.children = .ok (tokens.flatten.flatMap Piece.value)) ∧
      t.evaluate = .ok (.text (tokens.flatten.flatMap Piece.written)) ∧
      (t.evaluate = .ok (.text (tokens.flatten.flatMap Piece.value)) ↔ ∀ p ∈ tokens.flatten, ¬p.IsEscape) := by
  have hstring := string_of_stands hs.2
  refine ⟨hstring, fun h ↦ ?_, ht.evaluate, ?_⟩
  · rw [hstring, h.read_tokens hs.2 (List.infix_refl _), h.read]
  · rw [ht.evaluate, ← written_eq_value_iff]
    simp

def mixedLiteral (kind quote : String) : Node :=
  .mk kind none true false 0 24 (quote ++ "ab\\n\\x41\\u\x7b1F600\x7d\\\r\n\\0" ++ quote) [
    .mk quote none false false 0 1 quote [],
    .mk "string_fragment" none true false 1 3 "ab" [],
    .mk "escape_sequence" none true false 3 5 "\\n" [],
    .mk "escape_sequence" none true false 5 9 "\\x41" [],
    .mk "escape_sequence" none true false 9 18 "\\u\x7b1F600\x7d" [],
    .mk "escape_sequence" none true false 18 21 "\\\r\n" [],
    .mk "escape_sequence" none true false 21 23 "\\0" [],
    .mk quote none false false 23 24 quote []]

def mixedTokens : List (List Piece) :=
  [("ab" : Text).map .plain, [.escaped 'n' rfl], [.byte "41" 'A' ⟨rfl, rfl⟩], [.point "1F600" '😀' rfl],
    [.continued .carriageReturnLineFeed], [.null]]

theorem stands_mixed (kind quote : String) :
    List.Forall₂ Stands (mixedLiteral kind quote).namedChildren mixedTokens :=
  .cons (.fragment "ab" rfl rfl) (.cons (.escape _ trivial rfl rfl) (.cons (.escape _ trivial rfl rfl)
    (.cons (.escape _ trivial rfl rfl) (.cons (.escape _ trivial rfl rfl) (.cons (.escape _ trivial rfl rfl) .nil)))))

theorem readable_mixed : Readable mixedTokens.flatten where
  lineSeparator := by decide
  paragraphSeparator := by decide
  carriageReturn c _ h := absurd (h.subset List.mem_cons_self) (by decide)

theorem mixed_denotes : (mixedLiteral "string" "'").IsString mixedTokens ∧
    (mixedLiteral "template_string" "\x60").IsTemplate mixedTokens.flatten ∧
      Literal.string (mixedLiteral "string" "'").children = .ok "ab\nA😀\x00" := by
  have hs : (mixedLiteral "string" "'").IsString mixedTokens := ⟨rfl, stands_mixed _ _⟩
  have ht : (mixedLiteral "template_string" "\x60").IsTemplate mixedTokens.flatten :=
    ⟨rfl, rfl, mixedTokens, stands_mixed _ _, rfl⟩
  exact ⟨hs, ht, (literals_denote hs ht).2.1 readable_mixed⟩

def separatedString : Node :=
  .mk "string" none true false 0 8 "'a\\\u2028b'" [
    .mk "'" none false false 0 1 "'" [],
    .mk "string_fragment" none true false 1 2 "a" [],
    .mk "escape_sequence" none true false 2 6 "\\\u2028" [],
    .mk "string_fragment" none true false 6 7 "b" [],
    .mk "'" none false false 7 8 "'" []]

def escapedTemplate : Node :=
  .mk "template_string" none true false 0 4 "\x60\\n\x60" [
    .mk "\x60" none false false 0 1 "\x60" [],
    .mk "escape_sequence" none true false 1 3 "\\n" [],
    .mk "\x60" none false false 3 4 "\x60" []]

/-- Neither is a line continued behind a separator nor an escape sequence decoded in a template. -/
theorem separator_or_escape_kept :
    (∀ n ∈ separatedString.preorder ++ escapedTemplate.preorder, n.isFault = false) ∧
      separatedString.IsString [[.plain 'a'], [.continued .lineSeparator], [.plain 'b']] ∧
      [Piece.plain 'a', .continued .lineSeparator, .plain 'b'].flatMap Piece.value = "ab" ∧
      Literal.string separatedString.children = .ok "a\u2028b" ∧
      escapedTemplate.IsTemplate [.escaped 'n' rfl] ∧ (Piece.escaped 'n' rfl).value = "\n" ∧
      escapedTemplate.evaluate = .ok (.text "\\n") :=
  ⟨by decide, ⟨rfl, .cons (.fragment "a" rfl rfl) (.cons (.escape _ trivial rfl rfl) (.cons (.fragment "b" rfl rfl) .nil))⟩,
    rfl, rfl, ⟨rfl, rfl, [[.escaped 'n' rfl]], .cons (.escape _ trivial rfl rfl) .nil, rfl⟩, rfl, rfl⟩

end Node

end PolymerAnalysis
