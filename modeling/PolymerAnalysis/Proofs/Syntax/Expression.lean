import PolymerAnalysis.Proofs.Syntax.Escapes
import PolymerAnalysis.Proofs.Syntax.Number
import PolymerAnalysis.Proofs.Syntax.Source
import Mathlib.Data.List.ReduceOption

namespace PolymerAnalysis

open Text

inductive Sign where
  | plus
  | minus
deriving DecidableEq

namespace Sign

def symbol : Sign → Text
  | plus => "+"
  | minus => "-"

def apply : Sign → Value → Option Value
  | plus, .int i => some (.int i)
  | minus, .int i => some (.int (-i))
  | _, _ => none

end Sign

inductive Operation where
  | sum
  | difference
  | product
deriving DecidableEq

namespace Operation

def symbol : Operation → Text
  | sum => "+"
  | difference => "-"
  | product => "*"

def apply : Operation → Value → Value → Option Value
  | sum, .int i, .int j => some (.int (i + j))
  | sum, .text s, .text t => some (.text (s ++ t))
  | difference, .int i, .int j => some (.int (i - j))
  | product, .int i, .int j => some (.int (i * j))
  | _, _, _ => none

end Operation

inductive Key where
  | bare (t : Text)
  | quoted (t : Text)
  | numeral (spelling : Text)
  | bracketedText (t : Text)
  | bracketedNumeral (spelling : Text)
  /-- Anything else in brackets. -/
  | bracketed
deriving DecidableEq

namespace Key

/-- The name that a key is for in a script. The prototype is set under its name unless that is in brackets, and no name
is given here for an identifier with an escape sequence or for what is calculated. -/
def name? : Key → Option Text
  | bare t => if .ofChar '\\' ∈ t ∨ t = "__proto__" then none else some t
  | quoted t => if t = "__proto__" then none else some t
  | numeral spelling => (Literal.integerOf? spelling).map Numeral.ofNat
  | bracketedText t => some t
  | bracketedNumeral spelling => (Literal.integerOf? spelling).map Numeral.ofNat
  | bracketed => none

/-- The key is read as the name that it is for. A number is one of these only in decimal or in brackets. -/
def isExact : Key → Bool
  | bare t => .ofChar '\\' ∉ t ∧ t ≠ "__proto__"
  | quoted t => t ≠ "__proto__"
  | numeral spelling => (Literal.integerOf? spelling).any fun k ↦ spelling = Numeral.ofNat k
  | bracketedText _ => true
  | bracketedNumeral spelling => ¬Literal.IsMisread spelling ∧
      (Literal.integerOf? spelling).all fun k ↦ (Numeral.ofNat k).length ≤ Numeral.digitLimit
  | bracketed => true

end Key

inductive Expression where
  | numeral (spelling : Text)
  | text (t : Text)
  | bool (b : Bool)
  | null
  | signed (sign : Sign) (e : Expression)
  | binary (operation : Operation) (e f : Expression)
  /-- The positions of a list, the empty ones among them. -/
  | array (slots : List (Option Expression))
  | object (members : List (Key × Expression))

namespace Expression

mutual

/-- The value in a script, with integers of any size. An empty position has the value `undefined`, for which `null`
stands. Nothing is said here of operands that a script converts first. -/
def value? : Expression → Option Value
  | numeral spelling => (Literal.integerOf? spelling).map fun k : Nat ↦ .int k
  | text t => some (.text t)
  | bool b => some (.bool b)
  | null => some .null
  | signed sign e => e.value?.bind sign.apply
  | binary operation e f => e.value?.bind fun v ↦ f.value?.bind fun w ↦ operation.apply v w
  | array slots => (values? slots).map .list
  | object members => (entries? members).map fun es ↦ .dict (Keyed.latest Prod.fst es)

def values? : List (Option Expression) → Option (List Value)
  | [] => some []
  | none :: slots => (values? slots).map (.null :: ·)
  | some e :: slots => e.value?.bind fun v ↦ (values? slots).map (v :: ·)

def entries? : List (Key × Expression) → Option (List (Text × Value))
  | [] => some []
  | (key, e) :: members =>
    key.name?.bind fun name ↦ e.value?.bind fun v ↦ (entries? members).map ((name, v) :: ·)

end

mutual

/-- No number in it is misread, no position is empty and every key is read as the name that it is for. -/
def isExact : Expression → Bool
  | numeral spelling => ¬Literal.IsMisread spelling
  | text _ => true
  | bool _ => true
  | null => true
  | signed _ e => e.isExact
  | binary _ e f => e.isExact && f.isExact
  | array slots => areExact slots
  | object members => membersExact members

def areExact : List (Option Expression) → Bool
  | [] => true
  | none :: _ => false
  | some e :: slots => e.isExact && areExact slots

def membersExact : List (Key × Expression) → Bool
  | [] => true
  | (key, e) :: members => key.isExact && e.isExact && membersExact members

end

end Expression

namespace Node

def IsPlain (n : Node) (t : Text) : Prop :=
  n.kind = "string" ∧ (∀ c ∈ n.namedChildren, c.kind = "string_fragment") ∧ n.namedChildren.flatMap Node.text = t

/-- The positions of a list, from what follows its opening bracket. A comma ends each of them, but for one that ends with
the closing bracket, and a node that stands before takes it up. -/
inductive Row : List Node → List (Option Node) → Prop
  | closing {bracket : Node} (h : bracket.named = false) : Row [bracket] []
  | last {n bracket : Node} (hn : n.named) (h : bracket.named = false) : Row [n, bracket] [some n]
  | item {n comma : Node} {ns : List Node} {slots : List (Option Node)} (hn : n.named) (hcomma : comma.named = false)
      (h : Row ns slots) : Row (n :: comma :: ns) (some n :: slots)
  | hole {comma : Node} {ns : List Node} {slots : List (Option Node)} (hcomma : comma.named = false)
      (h : Row ns slots) : Row (comma :: ns) (none :: slots)

/-- A list with its positions. Comments do not count. -/
def IsArray (n : Node) (slots : List (Option Node)) : Prop :=
  n.kind = "array" ∧ ∃ bracket ns, n.children.filter (·.kind ≠ "comment") = bracket :: ns ∧ bracket.named = false ∧
    Row ns slots

inductive SpellsKey (n : Node) : Key → Prop
  | bare {t : Text} (h : n.kind ∈ keyKinds) (ht : n.text = t) : SpellsKey n (.bare t)
  | quoted {t : Text} (h : n.IsPlain t) : SpellsKey n (.quoted t)
  | numeral {t : Text} (h : n.kind = "number") (ht : n.text = t) (hk : (Literal.integerOf? t).isSome) :
      SpellsKey n (.numeral t)
  | bracketedText {m : Node} {t : Text} (h : n.kind = "computed_property_name") (hm : n.namedChildren.head? = some m)
      (ht : m.IsPlain t) : SpellsKey n (.bracketedText t)
  | bracketedNumeral {m : Node} {t : Text} (h : n.kind = "computed_property_name")
      (hm : n.namedChildren.head? = some m) (hnumber : m.kind = "number") (ht : m.text = t)
      (hk : (Literal.integerOf? t).isSome) : SpellsKey n (.bracketedNumeral t)
  | bracketed (h : n.kind = "computed_property_name")
      (hm : ∀ m, n.namedChildren.head? = some m → m.kind ≠ "string" ∧ m.kind ≠ "number") : SpellsKey n .bracketed

mutual

inductive Spells : Node → Expression → Prop
  | numeral {n : Node} {t : Text} (h : n.kind = "number") (ht : n.text = t) (hk : (Literal.integerOf? t).isSome) :
      Spells n (.numeral t)
  | text {n : Node} {t : Text} (h : n.IsPlain t) : Spells n (.text t)
  | bool {n : Node} {b : Bool} (h : n.kind = toString b) : Spells n (.bool b)
  | null {n : Node} (h : n.kind = "null") : Spells n .null
  | group {n m : Node} {e : Expression} (h : n.Encloses m) (hm : Spells m e) : Spells n e
  | signed {n operator m : Node} {e : Expression} (sign : Sign) (h : n.kind = "unary_expression")
      (ho : n.child? "operator" = some operator) (hsign : operator.text = sign.symbol)
      (hargument : n.child? "argument" = some m) (hm : Spells m e) : Spells n (.signed sign e)
  | binary {n operator left right : Node} {e f : Expression} (operation : Operation) (h : n.kind = "binary_expression")
      (ho : n.child? "operator" = some operator) (hoperation : operator.text = operation.symbol)
      (hl : n.child? "left" = some left) (hr : n.child? "right" = some right) (he : Spells left e)
      (hf : Spells right f) : Spells n (.binary operation e f)
  | array {n : Node} {slots : List (Option Node)} {es : List (Option Expression)} (h : n.IsArray slots)
      (hslots : SpellsSlots slots es) : Spells n (.array es)
  | object {n : Node} {members : List (Key × Expression)} (h : n.kind = "object")
      (hmembers : SpellsMembers n.parts members) : Spells n (.object members)

inductive SpellsSlots : List (Option Node) → List (Option Expression) → Prop
  | nil : SpellsSlots [] []
  | hole {slots : List (Option Node)} {es : List (Option Expression)} (h : SpellsSlots slots es) :
      SpellsSlots (none :: slots) (none :: es)
  | item {n : Node} {e : Expression} {slots : List (Option Node)} {es : List (Option Expression)} (hn : Spells n e)
      (h : SpellsSlots slots es) : SpellsSlots (some n :: slots) (some e :: es)

inductive SpellsMembers : List Node → List (Key × Expression) → Prop
  | nil : SpellsMembers [] []
  | pair {n keyNode m : Node} {key : Key} {e : Expression} {ns : List Node} {members : List (Key × Expression)}
      (hkind : n.kind = "pair") (hk : n.child? "key" = some keyNode) (hm : n.child? "value" = some m)
      (hkey : SpellsKey keyNode key) (he : Spells m e) (h : SpellsMembers ns members) :
      SpellsMembers (n :: ns) ((key, e) :: members)

end

end Node

theorem Sign.unary_symbol (sign : Sign) {v : Value} (hv : ∀ x, v ≠ .float x) :
    Arithmetic.unary sign.symbol v = sign.apply v := by
  cases v with
  | float x => exact absurd rfl (hv x)
  | null | bool | int | text | list | dict | unevaluated => cases sign <;> rfl

theorem Operation.binary_symbol (operation : Operation) {v w : Value} (hv : ∀ x, v ≠ .float x)
    (hw : ∀ x, w ≠ .float x) : Arithmetic.binary operation.symbol v w = .ok (operation.apply v w) := by
  cases v with
  | float x => exact absurd rfl (hv x)
  | null | bool | int | text | list | dict | unevaluated =>
    cases w with
    | float x => exact absurd rfl (hw x)
    | null | bool | int | text | list | dict | unevaluated => cases operation <;> rfl

theorem Expression.value?_ne_float {e : Expression} {v : Value} (h : e.value? = some v) (x : Binary64) :
    v ≠ .float x := by
  rintro rfl
  cases e with
  | numeral spelling | array slots | object members =>
    rw [value?] at h
    obtain ⟨_, -, h⟩ := Option.map_eq_some_iff.1 h
    cases h
  | text t | bool b | null => cases h
  | signed sign e =>
    rw [value?] at h
    obtain ⟨v, -, h⟩ := Option.bind_eq_some_iff.1 h
    cases sign <;> cases v <;> cases h
  | binary operation e f =>
    rw [value?] at h
    obtain ⟨v, -, h⟩ := Option.bind_eq_some_iff.1 h
    obtain ⟨w, -, h⟩ := Option.bind_eq_some_iff.1 h
    cases operation <;> cases v <;> cases w <;> cases h

namespace Node

open Literal Expression

variable {n m : Node} {ns : List Node} {t : Text} {v : Value}

theorem IsPlain.string_eq (h : n.IsPlain t) : Literal.string n.children = .ok t := by
  obtain ⟨-, hkind, rfl⟩ := h
  have hstands : List.Forall₂ Stands n.namedChildren (n.namedChildren.map fun c ↦ c.text.map .plain) :=
    List.forall₂_map_right_iff.2 (List.forall₂_same.2 fun c hc ↦ .fragment c.text (hkind c hc) rfl)
  rw [string_of_stands hstands, List.flatMap_map]
  simp only [readAll_plain]

theorem evaluate_number (h : n.kind = "number") : n.evaluate = .ok (Literal.number n.text) := by
  cases n
  cases h
  rfl

theorem evaluate_bool {b : Bool} (h : n.kind = toString b) : n.evaluate = .ok (.bool b) := by
  cases n
  cases h
  cases b <;> rfl

theorem evaluate_null (h : n.kind = "null") : n.evaluate = .ok .null := by
  cases n
  cases h
  rfl

theorem keyName_quoted (h : n.kind = "string") : n.keyName = some <$> Literal.string n.children := by
  rw [keyName, h, if_neg (by decide), if_pos rfl]

theorem keyName_numeral (h : n.kind = "number") : n.keyName = .ok (some n.text) := by
  rw [keyName, h, if_neg (by decide), if_neg (by decide), if_pos rfl]

theorem keyName_bracketed (h : n.kind = "computed_property_name") :
    n.keyName = n.namedChildren.head?.elim (.ok none) literalName := by
  rw [keyName, h, if_neg (by decide), if_neg (by decide), if_neg (by decide), if_pos rfl]
  cases n.namedChildren.head? <;> rfl

theorem literalName_numeral {k : Nat} (h : n.kind = "number") (hk : integerOf? n.text = some k)
    (hread : ¬IsMisread n.text) (hlength : (Numeral.ofNat k).length ≤ Numeral.digitLimit) :
    n.literalName = .ok (some (Numeral.ofNat k)) := by
  rw [literalName, h, if_neg (by decide), if_pos rfl, number_of_integerOf? hk hread]
  have hwrite : Numeral.write k = .ok (Numeral.ofNat k) := by
    rw [Numeral.write, if_neg (by simpa using hlength), if_neg (by omega)]
    rfl
  simp only [hwrite]

theorem SpellsKey.keyName_eq {key : Key} (h : n.SpellsKey key) (hexact : key.isExact) : n.keyName = .ok key.name? := by
  cases h with
  | bare h ht =>
    rw [keyName, if_pos h, ht, Key.name?, if_neg (by simpa [Key.isExact] using hexact)]
  | quoted h =>
    rw [keyName_quoted h.1, h.string_eq, Key.name?, if_neg (by simpa [Key.isExact] using hexact)]
    rfl
  | @numeral t h ht hk =>
    obtain ⟨k, hk⟩ := Option.isSome_iff_exists.1 hk
    have hspelling : t = Numeral.ofNat k := by simpa [Key.isExact, hk] using hexact
    rw [keyName_numeral h, ht, Key.name?, hk, Option.map_some, ← hspelling]
  | bracketedText h hm ht =>
    rw [keyName_bracketed h, hm, Option.elim_some, literalName, if_pos ht.1, ht.string_eq]
    rfl
  | bracketedNumeral h hm hnumber ht hk =>
    subst ht
    obtain ⟨k, hk⟩ := Option.isSome_iff_exists.1 hk
    obtain ⟨hread, hlength⟩ : ¬IsMisread _ ∧ (Numeral.ofNat k).length ≤ Numeral.digitLimit := by
      simpa [Key.isExact, hk] using hexact
    rw [keyName_bracketed h, hm, Key.name?, hk]
    exact literalName_numeral hnumber hk hread hlength
  | bracketed h hm =>
    rw [keyName_bracketed h, Key.name?]
    cases hhead : n.namedChildren.head? with
    | none => rfl
    | some m =>
      obtain ⟨hstring, hnumber⟩ := hm m hhead
      rw [Option.elim_some, literalName, if_neg hstring, if_neg hnumber]

def HasValue (n : Node) (v : Value) : Prop := n.evaluate = .ok v ∧ v.isUnevaluated = false

def HasEntry (member : Node) (entry : Text × Value) : Prop :=
  member.kind = "pair" ∧ member.memberName = .ok (some entry.1) ∧
    ∃ m, member.child? "value" = some m ∧ m.HasValue entry.2

theorem values_of_evaluateItems {vs : List Value} (h : evaluateItems ns = .ok (some vs)) :
    List.Forall₂ HasValue (items ns) vs := by
  induction ns generalizing vs with
  | nil =>
    rw [evaluateItems] at h
    cases h
    exact .nil
  | cons n ns ih =>
    rw [evaluateItems] at h
    by_cases hskip : (!n.named || n.isComment) = true
    · rw [if_pos hskip] at h
      rw [items_cons_of_pos hskip]
      exact ih h
    · rw [if_neg hskip] at h
      rw [items_cons_of_neg hskip]
      obtain ⟨v, hv, h⟩ := exists_of_bind_eq_ok h
      split at h
      · cases h
      next hknown =>
      obtain ⟨o, ho, h⟩ := exists_of_bind_eq_ok h
      obtain ⟨vs', rfl, rfl⟩ := Option.map_eq_some_iff.1 (Except.ok.inj h)
      exact .cons ⟨hv, Bool.eq_false_of_not_eq_true hknown⟩ (ih ho)

theorem entries_of_evaluateMembers {entries es : List (Text × Value)}
    (h : evaluateMembers entries ns = .ok (some es)) :
    ∃ members, List.Forall₂ HasEntry (items ns) members ∧
      es = members.foldl (fun es e ↦ Keyed.upsert Prod.fst e es) entries := by
  induction ns generalizing entries with
  | nil =>
    rw [evaluateMembers] at h
    cases h
    exact ⟨[], .nil, rfl⟩
  | cons n ns ih =>
    rw [evaluateMembers_cons] at h
    by_cases hskip : (!n.named || n.isComment) = true
    · rw [if_pos hskip] at h
      rw [items_cons_of_pos hskip]
      exact ih h
    · rw [if_neg hskip] at h
      rw [items_cons_of_neg hskip]
      split at h
      · cases h
      next hpair =>
      obtain ⟨key, hkey, h⟩ := exists_of_bind_eq_ok h
      obtain ⟨v, hv, h⟩ := exists_of_bind_eq_ok h
      cases key with
      | none => cases h
      | some name =>
        simp only at h
        split at h
        · cases h
        next hunknown =>
        have hknown : v.isUnevaluated = false := Bool.eq_false_of_not_eq_true hunknown
        obtain ⟨m, hm, hmv⟩ := exists_of_evaluate? hv hknown
        obtain ⟨members, hmembers, hes⟩ := ih h
        exact ⟨(name, v) :: members, .cons ⟨not_not.1 hpair, hkey, m, hm, hmv, hknown⟩ hmembers, hes⟩

theorem Row.filter_named {slots : List (Option Node)} (h : Row ns slots) :
    ns.filter (·.named) = slots.reduceOption := by
  induction h with
  | closing h => exact List.filter_cons_of_neg (by simp [h])
  | last hn h =>
    rw [List.filter_cons_of_pos hn, List.filter_cons_of_neg (by simp [h])]
    rfl
  | item hn hcomma _ ih =>
    rw [List.filter_cons_of_pos hn, List.filter_cons_of_neg (by simp [hcomma]), ih, List.reduceOption_cons_of_some]
  | hole hcomma _ ih => rw [List.filter_cons_of_neg (by simp [hcomma]), ih, List.reduceOption_cons_of_none]

theorem IsArray.parts_eq {slots : List (Option Node)} (h : n.IsArray slots) : n.parts = slots.reduceOption := by
  obtain ⟨-, bracket, ns, hchildren, hbracket, hrow⟩ := h
  rw [parts, namedChildren, List.filter_comm, hchildren, List.filter_cons_of_neg (by simp [hbracket])]
  exact hrow.filter_named

theorem HasValue.list (hv : n.HasValue v) (h : n.kind = "array") :
    ∃ vs, v = .list vs ∧ List.Forall₂ HasValue n.parts vs := by
  obtain ⟨hv, hknown⟩ := hv
  rw [evaluate_array h] at hv
  obtain ⟨o, ho, rfl⟩ := exists_of_map_eq_ok hv
  cases o with
  | none => cases hknown
  | some vs => exact ⟨vs, rfl, values_of_evaluateItems ho⟩

theorem HasValue.dict (hv : n.HasValue v) (h : n.kind = "object") :
    ∃ members, v = .dict (Keyed.latest Prod.fst members) ∧ List.Forall₂ HasEntry n.parts members := by
  obtain ⟨hv, hknown⟩ := hv
  rw [evaluate_object h] at hv
  obtain ⟨o, ho, rfl⟩ := exists_of_map_eq_ok hv
  cases o with
  | none => cases hknown
  | some es =>
    obtain ⟨members, hmembers, rfl⟩ := entries_of_evaluateMembers ho
    exact ⟨members, by rw [Keyed.foldl_upsert], hmembers⟩

theorem HasValue.argument {operator : Node} (hv : n.HasValue v) (h : n.kind = "unary_expression")
    (ho : n.child? "operator" = some operator) (hm : n.child? "argument" = some m) :
    ∃ w, m.HasValue w ∧ Arithmetic.unary operator.text w = some v := by
  obtain ⟨hv, hknown⟩ := hv
  rw [evaluate_unary h, ho, hm] at hv
  obtain ⟨w, hw, rfl⟩ := exists_of_map_eq_ok hv
  split at hknown
  · cases hknown
  next hwknown =>
  cases hunary : Arithmetic.unary operator.text w with
  | none =>
    rw [hunary] at hknown
    cases hknown
  | some u =>
    refine ⟨w, ⟨hw, Bool.eq_false_of_not_eq_true hwknown⟩, ?_⟩
    rw [if_neg hwknown, hunary]
    rfl

theorem HasValue.operands {operator left right : Node} (hv : n.HasValue v) (h : n.kind = "binary_expression")
    (ho : n.child? "operator" = some operator) (hl : n.child? "left" = some left) (hr : n.child? "right" = some right) :
    ∃ x y, left.HasValue x ∧ right.HasValue y ∧ Arithmetic.binary operator.text x y = .ok (some v) := by
  obtain ⟨hv, hknown⟩ := hv
  rw [evaluate_binary h, ho, hl, hr] at hv
  obtain ⟨x, hx, hv⟩ := exists_of_bind_eq_ok hv
  obtain ⟨y, hy, hv⟩ := exists_of_bind_eq_ok hv
  simp only at hv
  split at hv
  · cases hv
    cases hknown
  next hoperands =>
  obtain ⟨o, hbinary, hv⟩ := exists_of_bind_eq_ok hv
  obtain ⟨hxknown, hyknown⟩ := Bool.or_eq_false_iff.1 (Bool.eq_false_of_not_eq_true hoperands)
  cases o with
  | none =>
    cases hv
    cases hknown
  | some u =>
    cases hv
    exact ⟨x, y, ⟨hx, hxknown⟩, ⟨hy, hyknown⟩, hbinary⟩

theorem HasEntry.name_eq {member keyNode : Node} {key : Key} {entry : Text × Value} (h : member.HasEntry entry)
    (hk : member.child? "key" = some keyNode) (hkey : keyNode.SpellsKey key) (hexact : key.isExact) :
    key.name? = some entry.1 := by
  have hname := h.2.1
  rw [memberName, hk] at hname
  exact Except.ok.inj ((hkey.keyName_eq hexact).symm.trans hname)

mutual

/-- An exact expression that is evaluated has the value that it has in a script. -/
theorem Spells.value?_eq {n : Node} {e : Expression} {v : Value} :
    n.Spells e → e.isExact → n.HasValue v → e.value? = some v
  | .numeral h ht hk, hexact, hv => by
    subst ht
    obtain ⟨k, hk⟩ := Option.isSome_iff_exists.1 hk
    have hread : ¬IsMisread n.text := by simpa [isExact] using hexact
    have hnumber : v = .int k := Except.ok.inj (hv.1.symm.trans ((evaluate_number h).trans
      (congrArg Except.ok (number_of_integerOf? hk hread))))
    rw [value?, hk, hnumber, Option.map_some]
  | .text h, _, hv => by
    have hstring := hv.1
    rw [evaluate_string h.1, h.string_eq] at hstring
    cases hstring
    rfl
  | .bool h, _, hv => congrArg some (Except.ok.inj ((evaluate_bool h).symm.trans hv.1))
  | .null h, _, hv => congrArg some (Except.ok.inj ((evaluate_null h).symm.trans hv.1))
  | .group h hm, hexact, hv => by
    rcases h.evaluate_or with heq | ⟨c, hc⟩
    · exact hm.value?_eq hexact ⟨heq ▸ hv.1, hv.2⟩
    · have hcomment := hc.evaluate.symm.trans hv.1
      cases hcomment
      cases hv.2
  | .signed sign h ho hsign hargument hm, hexact, hv => by
    obtain ⟨w, hw, hunary⟩ := hv.argument h ho hargument
    have hwvalue := hm.value?_eq (by simpa [isExact] using hexact) hw
    rw [hsign, sign.unary_symbol (value?_ne_float hwvalue)] at hunary
    rw [value?, hwvalue, Option.bind_some, hunary]
  | .binary operation h ho hoperation hl hr he hf, hexact, hv => by
    obtain ⟨hexact₁, hexact₂⟩ := Bool.and_eq_true_iff.1 hexact
    obtain ⟨x, y, hx, hy, hbinary⟩ := hv.operands h ho hl hr
    have hxvalue := he.value?_eq hexact₁ hx
    have hyvalue := hf.value?_eq hexact₂ hy
    rw [hoperation, operation.binary_symbol (value?_ne_float hxvalue) (value?_ne_float hyvalue)] at hbinary
    rw [value?, hxvalue, Option.bind_some, hyvalue, Option.bind_some, Except.ok.inj hbinary]
  | .array h hslots, hexact, hv => by
    obtain ⟨vs, rfl, hvs⟩ := hv.list h.1
    rw [h.parts_eq] at hvs
    rw [value?, hslots.values?_eq hexact hvs, Option.map_some]
  | .object h hmembers, hexact, hv => by
    obtain ⟨entries, rfl, hentries⟩ := hv.dict h
    rw [value?, hmembers.entries?_eq hexact hentries, Option.map_some]

theorem SpellsSlots.values?_eq {slots : List (Option Node)} {es : List (Option Expression)} {vs : List Value} :
    SpellsSlots slots es → areExact es → List.Forall₂ HasValue slots.reduceOption vs → values? es = some vs
  | .nil, _, hvs => by
    cases hvs
    rfl
  | .hole _, hexact, _ => by cases hexact
  | .item hn h, hexact, hvs => by
    obtain ⟨hfirst, hrest⟩ := Bool.and_eq_true_iff.1 hexact
    rw [List.reduceOption_cons_of_some] at hvs
    cases hvs with
    | cons hv hvs =>
      rw [values?, hn.value?_eq hfirst hv, Option.bind_some, h.values?_eq hrest hvs, Option.map_some]

theorem SpellsMembers.entries?_eq {ns : List Node} {members : List (Key × Expression)} {es : List (Text × Value)} :
    SpellsMembers ns members → membersExact members → List.Forall₂ HasEntry ns es → entries? members = some es
  | .nil, _, hes => by
    cases hes
    rfl
  | .pair hkind hk hm hkey he h, hexact, hes => by
    obtain ⟨hfirst, hrest⟩ := Bool.and_eq_true_iff.1 hexact
    obtain ⟨hkeyExact, heExact⟩ := Bool.and_eq_true_iff.1 hfirst
    cases hes with
    | cons hentry hes =>
      obtain ⟨m, hm', hv⟩ := hentry.2.2
      obtain rfl := Option.some.inj (hm.symm.trans hm')
      rw [entries?, hentry.name_eq hk hkey hkeyExact, Option.bind_some, he.value?_eq heExact hv, Option.bind_some,
        h.entries?_eq hrest hes, Option.map_some]

end

theorem exists_evaluate_binary {operator left right : Node} {x y : Value} (h : n.kind = "binary_expression")
    (ho : n.child? "operator" = some operator) (hl : n.child? "left" = some left) (hr : n.child? "right" = some right)
    (hx : left.evaluate = .ok x) (hy : right.evaluate = .ok y) (hbinary : left.HasValue x → right.HasValue y →
      ∃ o, Arithmetic.binary operator.text x y = .ok o) : ∃ v, n.evaluate = .ok v := by
  rw [evaluate_binary h, ho, hl, hr, evaluate?, evaluate?, hx, hy]
  by_cases hoperands : (x.isUnevaluated || y.isUnevaluated) = true
  · exact ⟨.unevaluated n.text, if_pos hoperands⟩
  · obtain ⟨hxknown, hyknown⟩ := Bool.or_eq_false_iff.1 (Bool.eq_false_of_not_eq_true hoperands)
    obtain ⟨o, ho⟩ := hbinary ⟨hx, hxknown⟩ ⟨hy, hyknown⟩
    refine ⟨o.getD (.unevaluated n.text), (if_neg hoperands).trans ?_⟩
    rw [ho]
    rfl

theorem exists_evaluate_array (h : n.kind = "array") (hparts : ∀ m ∈ n.parts, ∃ v, m.evaluate = .ok v) :
    ∃ v, n.evaluate = .ok v := by
  cases heval : n.evaluate with
  | ok v => exact ⟨v, rfl⟩
  | error e =>
    obtain ⟨m, ⟨before, _, behind, hm, -, rfl⟩, he⟩ := (evaluate_array_eq_error_iff h).1 heval
    obtain ⟨v, hv⟩ := hparts _ (hm ▸ List.mem_append_cons_self)
    cases he.symm.trans hv

theorem exists_evaluate_object (h : n.kind = "object") (hparts : ∀ member ∈ n.parts,
      (∃ name, member.memberName = .ok name) ∧ ∃ v, evaluate? (member.child? "value") = .ok v) :
    ∃ v, n.evaluate = .ok v := by
  cases heval : n.evaluate with
  | ok v => exact ⟨v, rfl⟩
  | error e =>
    rw [evaluate_object h, map_eq_error_iff, evaluateMembers_eq_error_iff] at heval
    obtain ⟨before, member, behind, hmember, -, -, hbreaks⟩ := heval
    have hmem : member ∈ items n.children := hmember ▸ List.mem_append_cons_self
    obtain ⟨⟨name, hname⟩, v, hv⟩ := hparts member hmem
    rcases hbreaks with he | ⟨-, he⟩
    · cases he.symm.trans hname
    · cases (evaluate?_eq_error_iff.2 he).symm.trans hv

mutual

/-- The evaluation of an exact expression does not break off. -/
theorem Spells.exists_evaluate {n : Node} {e : Expression} : n.Spells e → e.isExact → ∃ v, n.evaluate = .ok v
  | .numeral h _ _, _ => ⟨_, evaluate_number h⟩
  | .text h, _ => ⟨.text _, by rw [evaluate_string h.1, h.string_eq]; rfl⟩
  | .bool h, _ => ⟨_, evaluate_bool h⟩
  | .null h, _ => ⟨_, evaluate_null h⟩
  | .group h hm, hexact => by
    rcases h.evaluate_or with heq | ⟨c, hc⟩
    · rw [heq]
      exact hm.exists_evaluate hexact
    · exact ⟨_, hc.evaluate⟩
  | .signed sign h ho hsign hargument hm, hexact => by
    obtain ⟨w, hw⟩ := hm.exists_evaluate (by simpa [isExact] using hexact)
    rw [evaluate_unary h, ho, hargument]
    simp only [hw]
    exact ⟨_, rfl⟩
  | .binary operation h ho hoperation hl hr he hf, hexact => by
    obtain ⟨hexact₁, hexact₂⟩ := Bool.and_eq_true_iff.1 hexact
    obtain ⟨x, hx⟩ := he.exists_evaluate hexact₁
    obtain ⟨y, hy⟩ := hf.exists_evaluate hexact₂
    -- what the operands are evaluated to is no float, so that no integer has to be converted
    refine exists_evaluate_binary h ho hl hr hx hy fun hx hy ↦ ?_
    rw [hoperation, operation.binary_symbol (value?_ne_float (he.value?_eq hexact₁ hx))
      (value?_ne_float (hf.value?_eq hexact₂ hy))]
    exact ⟨_, rfl⟩
  | .array h hslots, hexact => exists_evaluate_array h.1 fun m hm ↦ hslots.exists_evaluate hexact m (h.parts_eq ▸ hm)
  | .object h hmembers, hexact => exists_evaluate_object h (hmembers.exists_evaluate hexact)

theorem SpellsSlots.exists_evaluate {slots : List (Option Node)} {es : List (Option Expression)} :
    SpellsSlots slots es → areExact es → ∀ m ∈ slots.reduceOption, ∃ v, m.evaluate = .ok v
  | .nil, _ => fun m hm ↦ absurd hm List.not_mem_nil
  | .hole _, hexact => by cases hexact
  | .item hn h, hexact => by
    obtain ⟨hfirst, hrest⟩ := Bool.and_eq_true_iff.1 hexact
    rw [List.reduceOption_cons_of_some]
    exact List.forall_mem_cons.2 ⟨hn.exists_evaluate hfirst, h.exists_evaluate hrest⟩

theorem SpellsMembers.exists_evaluate {ns : List Node} {members : List (Key × Expression)} :
    SpellsMembers ns members → membersExact members →
      ∀ member ∈ ns, (∃ name, member.memberName = .ok name) ∧ ∃ v, evaluate? (member.child? "value") = .ok v
  | .nil, _ => fun m hm ↦ absurd hm List.not_mem_nil
  | .pair hkind hk hm hkey he h, hexact => by
    obtain ⟨hfirst, hrest⟩ := Bool.and_eq_true_iff.1 hexact
    obtain ⟨hkeyExact, heExact⟩ := Bool.and_eq_true_iff.1 hfirst
    refine List.forall_mem_cons.2 ⟨⟨?_, ?_⟩, h.exists_evaluate hrest⟩
    · rw [memberName, hk]
      exact ⟨_, hkey.keyName_eq hkeyExact⟩
    · rw [hm]
      exact he.exists_evaluate heExact

end

/-- An exact expression has no value or the one that it has in a script. A number that is misread is a float, the empty
positions of a list are left out of its value, and of the entries under one name the last one counts. -/
theorem evaluate_faithful (n : Node) :
    (∀ e, n.Spells e → e.isExact → ∃ v, n.evaluate = .ok v ∧ (v.isUnevaluated = false → e.value? = some v)) ∧
      (n.kind = "number" → IsMisread n.text → ∃ m, Numeral.value? 10 (digits n.text) = some m ∧
        n.evaluate = .ok (.float (.ofDecimal false m 0))) ∧
      (∀ slots vs, n.IsArray slots → n.evaluate = .ok (.list vs) → List.Forall₂ HasValue slots.reduceOption vs) ∧
      ∀ es, n.kind = "object" → n.evaluate = .ok (.dict es) →
        ∃ members, List.Forall₂ HasEntry n.parts members ∧ es = Keyed.latest Prod.fst members := by
  refine ⟨fun e h hexact ↦ ?_, fun h hread ↦ ?_, fun slots vs h hv ↦ ?_, fun es h hv ↦ ?_⟩
  · obtain ⟨v, hv⟩ := h.exists_evaluate hexact
    exact ⟨v, hv, fun hknown ↦ h.value?_eq hexact ⟨hv, hknown⟩⟩
  · obtain ⟨m, hm, hnumber⟩ := number_of_isMisread hread
    exact ⟨m, hm, hnumber ▸ evaluate_number h⟩
  · obtain ⟨_, heq, hvs⟩ := HasValue.list ⟨hv, rfl⟩ h.1
    cases heq
    exact h.parts_eq ▸ hvs
  · obtain ⟨members, heq, hmembers⟩ := HasValue.dict ⟨hv, rfl⟩ h
    cases heq
    exact ⟨members, hmembers, rfl⟩

def mixedList : Node :=
  .mk "array" none true false 0 25 "[0x1F, \x7ba: -2, 'a': 1_0\x7d]" [
    .mk "[" none false false 0 1 "[" [],
    .mk "number" none true false 1 5 "0x1F" [],
    .mk "," none false false 5 6 "," [],
    .mk "object" none true false 7 24 "\x7ba: -2, 'a': 1_0\x7d" [
      .mk "\x7b" none false false 7 8 "\x7b" [],
      .mk "pair" none true false 8 13 "a: -2" [
        .mk "property_identifier" (some "key") true false 8 9 "a" [],
        .mk ":" none false false 9 10 ":" [],
        .mk "unary_expression" (some "value") true false 11 13 "-2" [
          .mk "-" (some "operator") false false 11 12 "-" [],
          .mk "number" (some "argument") true false 12 13 "2" []]],
      .mk "," none false false 13 14 "," [],
      .mk "pair" none true false 15 23 "'a': 1_0" [
        .mk "string" (some "key") true false 15 18 "'a'" [
          .mk "'" none false false 15 16 "'" [],
          .mk "string_fragment" none true false 16 17 "a" [],
          .mk "'" none false false 17 18 "'" []],
        .mk ":" none false false 18 19 ":" [],
        .mk "number" (some "value") true false 20 23 "1_0" []],
      .mk "\x7d" none false false 23 24 "\x7d" []],
    .mk "]" none false false 24 25 "]" []]

def mixedExpression : Expression :=
  .array [some (.numeral "0x1F"), some (.object [(.bare "a", .signed .minus (.numeral "2")), (.quoted "a", .numeral "1_0")])]

theorem spells_mixed : mixedList.Spells mixedExpression := by
  refine .array ⟨rfl, _, _, rfl, rfl, .item rfl rfl (.last rfl rfl)⟩ (.item (.numeral rfl rfl rfl)
    (.item (.object rfl ?_) .nil))
  refine .pair rfl rfl rfl (.bare (by decide) rfl) (.signed .minus rfl rfl rfl rfl (.numeral rfl rfl rfl)) ?_
  exact .pair rfl rfl rfl (.quoted ⟨rfl, by decide, rfl⟩) (.numeral rfl rfl rfl) .nil

theorem mixed_evaluated : mixedList.Spells mixedExpression ∧ mixedExpression.isExact ∧
    mixedList.evaluate = .ok (.list [.int 31, .dict [("a", .int 10)]]) ∧
      mixedExpression.value? = some (.list [.int 31, .dict [("a", .int 10)]]) := by
  have hexact : mixedExpression.isExact := rfl
  have heval : mixedList.evaluate = .ok (.list [.int 31, .dict [("a", .int 10)]]) := rfl
  obtain ⟨v, hv, hvalue⟩ := (evaluate_faithful mixedList).1 mixedExpression spells_mixed hexact
  obtain rfl := Except.ok.inj (heval.symm.trans hv)
  exact ⟨spells_mixed, hexact, heval, hvalue rfl⟩

def elidedList : Node :=
  .mk "array" none true false 0 6 "[1,,2]" [
    .mk "[" none false false 0 1 "[" [],
    .mk "number" none true false 1 2 "1" [],
    .mk "," none false false 2 3 "," [],
    .mk "," none false false 3 4 "," [],
    .mk "number" none true false 4 5 "2" [],
    .mk "]" none false false 5 6 "]" []]

def octalNumber : Node := .mk "number" none true false 0 3 "010" []

def hexKeyed : Node :=
  .mk "object" none true false 0 9 "\x7b0x10: 1\x7d" [
    .mk "\x7b" none false false 0 1 "\x7b" [],
    .mk "pair" none true false 1 8 "0x10: 1" [
      .mk "number" (some "key") true false 1 5 "0x10" [],
      .mk ":" none false false 5 6 ":" [],
      .mk "number" (some "value") true false 7 8 "1" []],
    .mk "\x7d" none false false 8 9 "\x7d" []]

/-- An empty position is no entry of a list, an octal number is read in decimal and a number that is a key is not read. -/
theorem hole_or_octal_or_key_misread :
    (∀ n ∈ elidedList.preorder ++ octalNumber.preorder ++ hexKeyed.preorder, n.isFault = false) ∧
      (∃ e, elidedList.Spells e ∧ e.value? = some (.list [.int 1, .null, .int 2]) ∧
        elidedList.evaluate = .ok (.list [.int 1, .int 2])) ∧
      (∃ e, octalNumber.Spells e ∧ e.value? = some (.int 8) ∧
        octalNumber.evaluate = .ok (.float (.ofDecimal false 10 0))) ∧
      ∃ e, hexKeyed.Spells e ∧ e.value? = some (.dict [("16", .int 1)]) ∧
        hexKeyed.evaluate = .ok (.dict [("0x10", .int 1)]) := by
  have helided : elidedList.Spells (.array [some (.numeral "1"), none, some (.numeral "2")]) :=
    .array ⟨rfl, _, _, rfl, rfl, .item rfl rfl (.hole rfl (.last rfl rfl))⟩
      (.item (.numeral rfl rfl rfl) (.hole (.item (.numeral rfl rfl rfl) .nil)))
  have hkeyed : hexKeyed.Spells (.object [(.numeral "0x10", .numeral "1")]) := by
    refine .object rfl ?_
    exact .pair rfl rfl rfl (.numeral rfl rfl rfl) (.numeral rfl rfl rfl) .nil
  exact ⟨by decide, ⟨_, helided, rfl, rfl⟩, ⟨_, .numeral rfl rfl rfl, rfl, rfl⟩, _, hkeyed, rfl, rfl⟩

end Node

end PolymerAnalysis
