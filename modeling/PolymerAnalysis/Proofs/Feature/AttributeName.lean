import PolymerAnalysis.Proofs.Feature.Redeclaration
import PolymerAnalysis.Proofs.Text.Case

namespace PolymerAnalysis

open Keyed

/-- What names of properties are made of, without the hyphen that parts the words of an attribute. -/
def CodePoint.IsPlain (c : CodePoint) : Prop := c.isLetter ∨ c.isDigit ∨ c = .ofChar '_' ∨ c = .ofChar '$'

instance (c : CodePoint) : Decidable c.IsPlain := inferInstanceAs (Decidable (_ ∨ _))

def Text.IsPlain (t : Text) : Prop := ∀ c ∈ t, c.IsPlain

instance (t : Text) : Decidable t.IsPlain := inferInstanceAs (Decidable (∀ c ∈ t, c.IsPlain))

/-- The name of a property from its attribute: each hyphen and the letter after it are a capital. -/
def propertyName : Text → Text
  | [] => []
  | [c] => [c]
  | c :: d :: t => if c = .ofChar '-' ∧ d.isLetter then Text.upper [d] ++ propertyName t else c :: propertyName (d :: t)

def hyphenated (c : CodePoint) : Text := if c.isUpper then .ofChar '-' :: Text.lower [c] else [c]

variable {c : CodePoint} {s a : Text}

theorem CodePoint.IsPlain.lt (hc : c.IsPlain) : c.val < 0x80 := by
  rcases hc with hc | hc | rfl | rfl
  · simp only [isLetter, isUpper, isLower, Bool.or_eq_true, Bool.and_eq_true, decide_eq_true_eq] at hc
    omega
  · simp only [isDigit, Bool.and_eq_true, decide_eq_true_eq] at hc
    omega
  · decide
  · decide

theorem CodePoint.IsPlain.ne_hyphen (hc : c.IsPlain) : c ≠ .ofChar '-' := by
  rintro rfl
  exact absurd hc (by decide)

theorem attributeName?_eq (hs : s.IsPlain) (ha : attributeName? s = some a) : a = s.flatMap hyphenated := by
  rw [attributeName?] at ha
  split at ha
  · cases ha
  · have hascii : Text.IsAscii (s.flatMap fun c ↦ if c.isUpper then [.ofChar '-', c] else [c]) := by
      intro c hc
      obtain ⟨d, hd, hc⟩ := List.mem_flatMap.1 hc
      split at hc
      · rcases List.mem_pair.1 hc with rfl | rfl
        · decide
        · exact (hs c hd).lt
      · exact List.mem_singleton.1 hc ▸ (hs d hd).lt
    rw [← Option.some.inj ha, hascii.lower_eq, List.flatMap_assoc]
    refine List.flatMap_congr fun c hc ↦ ?_
    rw [hyphenated]
    cases hupper : c.isUpper with
    | true =>
      have hhyphen : Text.lower [.ofChar '-'] = [.ofChar '-'] := Text.lower_of_not_isUpper (by decide) (by decide)
      rw [if_pos rfl, if_pos rfl, List.flatMap_cons, List.flatMap_singleton, hhyphen, List.singleton_append]
    | false => exact (List.flatMap_singleton _ _).trans (Text.lower_of_not_isUpper (hs c hc).lt hupper)

/-- A capital is read off its two code points, and every other code point is read as it stands. -/
theorem propertyName_hyphenated (hc : c.IsPlain) (t : Text) : propertyName (hyphenated c ++ t) = c :: propertyName t := by
  rw [hyphenated]
  cases hupper : c.isUpper with
  | true =>
    obtain ⟨d, hlower, hd, hcapital⟩ := Text.exists_lower_of_isUpper hupper
    have hletter : d.isLetter := by
      rw [CodePoint.isLetter, hd, Bool.or_true]
    rw [if_pos rfl, hlower, List.cons_append, List.singleton_append, propertyName, if_pos ⟨rfl, hletter⟩, hcapital,
      List.singleton_append]
  | false =>
    rw [if_neg Bool.false_ne_true, List.singleton_append]
    cases t with
    | nil => rfl
    | cons d t => rw [propertyName, if_neg fun h ↦ hc.ne_hyphen h.1]

theorem propertyName_flatMap (hs : s.IsPlain) : propertyName (s.flatMap hyphenated) = s := by
  induction s with
  | nil => rfl
  | cons c s ih =>
    obtain ⟨hc, hs⟩ := List.forall_mem_cons.1 hs
    rw [List.flatMap_cons, propertyName_hyphenated hc, ih hs]

theorem propertyName_attributeName? (hs : s.IsPlain) (ha : attributeName? s = some a) : propertyName a = s := by
  rw [attributeName?_eq hs ha, propertyName_flatMap hs]

/-- Properties with plain names do not get into each other's way. -/
theorem Property.keptApart_of_isPlain {ps : List Property} (hps : ∀ p ∈ ps, p.name.IsPlain) : KeptApart ps := by
  intro p hp q hq a ha hb
  rw [← propertyName_attributeName? (hps p hp) ha, propertyName_attributeName? (hps q hq) hb]

/-- What a property makes stays as long as the property is not declared again. -/
theorem Declaration.mem_of_not_redeclared {β : Type} {get : Declaration → List β} {key : β → Text}
    {make : Property → Option β} {p : Property} {qs : List Property} {x : β}
    (hadd : ∀ d p, get (d.addProperty p) = (make p).elim (get d) fun x ↦ upsert key x (get d))
    (hkey : Property.KeyedByName make key (p :: qs)) (hqs : ∀ q ∈ qs, q.name ≠ p.name) (hx : make p = some x)
    (d : Declaration) : x ∈ get (qs.foldl addProperty (d.addProperty p)) := by
  rw [foldl_addProperty hadd, hadd, hx]
  refine mem_foldl_upsert_of_ne (mem_upsert_self key x (get d)) fun y hy heq ↦ ?_
  obtain ⟨q, hq, hy⟩ := List.mem_filterMap.1 hy
  exact hqs q hq ((hkey p List.mem_cons_self q (List.mem_cons_of_mem p hq) x y hx hy).1 heq).symm

/-- A name of letters, digits, underscores and dollars is read off its attribute, so that different names have different
attributes. The attribute and the change event of a property therefore stay whatever other properties are declared. -/
theorem plain_names_apart (s a : Text) (hs : s.IsPlain) (ha : attributeName? s = some a) :
    propertyName a = s ∧
    (∀ t b : Text, t.IsPlain → attributeName? t = some b → s ≠ t → a ≠ b) ∧
    ∀ (d : Declaration) (p : Property) (qs : List Property), p.name = s →
      (∀ q ∈ qs, q.name.IsPlain ∧ q.name ≠ s) →
      (∀ x, p.attribute? = some x → x ∈ (qs.foldl Declaration.addProperty (d.addProperty p)).attributes) ∧
      ∀ e, p.event? = some e → e ∈ (qs.foldl Declaration.addProperty (d.addProperty p)).events := by
  refine ⟨propertyName_attributeName? hs ha, ?_, ?_⟩
  · rintro t b ht hb hst rfl
    exact hst ((propertyName_attributeName? hs ha).symm.trans (propertyName_attributeName? ht hb))
  · rintro d p qs rfl hqs
    have hapart : Property.KeptApart (p :: qs) :=
      Property.keptApart_of_isPlain (List.forall_mem_cons.2 ⟨hs, fun q hq ↦ (hqs q hq).1⟩)
    have hne (q : Property) (hq : q ∈ qs) : q.name ≠ p.name := (hqs q hq).2
    exact ⟨fun x hx ↦ Declaration.mem_of_not_redeclared Declaration.attributes_addProperty hapart.attributes hne hx d,
      fun e he ↦ Declaration.mem_of_not_redeclared Declaration.events_addProperty hapart.events hne he d⟩

def shouted : Property := { name := "_myURL2", notify := true }

def spoken : Property := { name := "_myUrl2", notify := true }

theorem shouted_name_apart :
    shouted.name.IsPlain ∧ spoken.name.IsPlain ∧ spoken.name ≠ shouted.name ∧
    ∃ a b, attributeName? shouted.name = some a ∧ attributeName? spoken.name = some b ∧ a ≠ b ∧
      a = Text.ofString "_my-u-r-l2" ∧ propertyName a = shouted.name ∧
      ∃ d, d = [spoken].foldl Declaration.addProperty (Declaration.addProperty { role := .behavior } shouted) ∧
        (∃ x ∈ d.attributes, shouted.attribute? = some x) ∧ ∃ e ∈ d.events, shouted.event? = some e := by
  have hs : shouted.name.IsPlain := by decide +kernel
  have ht : spoken.name.IsPlain := by decide +kernel
  have hne : spoken.name ≠ shouted.name := by decide +kernel
  have ha : attributeName? shouted.name = some (Text.ofString "_my-u-r-l2") := by cbv
  have hb : attributeName? spoken.name = some (Text.ofString "_my-url2") := by cbv
  obtain ⟨x, hx⟩ : ∃ x, shouted.attribute? = some x := Option.isSome_iff_exists.1 (by cbv)
  obtain ⟨e, he⟩ : ∃ e, shouted.event? = some e := Option.isSome_iff_exists.1 (by cbv)
  obtain ⟨hname, hapart, hstays⟩ := plain_names_apart shouted.name _ hs ha
  obtain ⟨hattribute, hevent⟩ := hstays { role := .behavior } shouted [spoken] rfl fun q hq ↦ by
    cases List.mem_singleton.1 hq
    exact ⟨ht, hne⟩
  exact ⟨hs, ht, hne, _, _, ha, hb, hapart _ _ ht hb hne.symm, rfl, hname, _, rfl, ⟨x, hattribute x hx, hx⟩,
    e, hevent e he, he⟩

/-- A hyphen in a name can be taken for the mark of a capital. -/
example : attributeName? "a-b" = attributeName? "aB" := by cbv

end PolymerAnalysis
