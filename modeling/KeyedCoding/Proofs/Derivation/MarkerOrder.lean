import KeyedCoding.Proofs.Derivation.KeyNames
import KeyedCoding.Proofs.Derivation.WellFormed
import KeyedCoding.Proofs.Source.Fields

/-!
# Markers in either order

A struct that asks for coding and for an initializer is expanded by whichever of the two markers
comes first.  That one is made anew from its arguments, the other is read as it is written.  The two
ways give the same code unless the arguments of the coding marker are an empty pair of parentheses:
written, they ask for no protocol, but made anew they vanish and ask for both.
-/

namespace KeyedCoding

open Attribute Diagnostic

/-! ## Where the end is reported -/

/-- What is parsed does not depend on where its end would be reported. -/
theorem Language.parse_eq_ok {α : Type} {p : Grammar → Parser α} {scope : Span} {tokens : Tokens}
    {a : α} (h : parse p scope tokens = .ok a) (other : Span) : parse p other tokens = .ok a :=
  Parser.run_eq_ok_iff.mpr (Parser.run_eq_ok_iff.mp h)

/-! ## Attributes of one name -/

namespace Attribute

/-- An attribute has a name of the catalog, and its arguments are accepted. -/
structure Uses (a : Attribute) (k : Known) : Prop where
  named : a.isNamed k.name = true
  checked : k.check a = .ok ()

variable {a : Attribute} {k : Known}

theorem Uses.isNamed_eq (h : a.Uses k) (j : Known) : a.isNamed j.name = decide (k = j) := by
  rw [Attribute.isNamed_eq, Known.of?_eq_some_iff.mpr h.named]
  simp

theorem Uses.understood (h : a.Uses k) : a.Understood := by
  intro j hj
  rw [h.isNamed_eq, decide_eq_true_iff] at hj
  exact hj ▸ h.checked

variable {α : Type} {read : Attribute → Except Failure α}

theorem Uses.asks_of_ne (h : a.Uses k) {j : Known} (hne : k ≠ j) : asks j read a = none := by
  simp [asks, h.isNamed_eq, hne]

theorem asked_cons (rest : List Attribute) :
    asked k read (a :: rest) = (asked k read rest).or (asks k read a) := by
  rw [asked, List.reverse_cons, List.findSome?_append, List.findSome?_singleton, asked]

theorem asked_eq_none {attributes : List Attribute}
    (h : ∀ a ∈ attributes, a.isNamed k.name = false) : asked k read attributes = none := by
  rw [asked, List.findSome?_eq_none_iff]
  intro a ha
  simp [asks, h a (List.mem_reverse.mp ha)]

end Attribute

namespace Target

variable {kind : DeclarationKind} {name : String}

theorem count_cons (a : Attribute) (rest : List Attribute) (n : String) :
    (⟨kind, name, a :: rest⟩ : Target).count n =
      (if a.isNamed n then 1 else 0) + (⟨kind, name, rest⟩ : Target).count n := by
  simp only [count, List.filter_cons]
  cases a.isNamed n <;> simp [Nat.add_comm]

/-- Where a name stands only once, what is asked for is what its attribute asks for. -/
theorem asked_of_mem {α : Type} {read : Attribute → Except Failure α} {k : Known} {a : Attribute}
    {attributes : List Attribute} (honce : (⟨kind, name, attributes⟩ : Target).count k.name ≤ 1)
    (ha : a ∈ attributes) (hnamed : a.isNamed k.name = true) {b : α} (hread : read a = .ok b) :
    asked k read attributes = some b := by
  induction attributes with
  | nil => cases ha
  | cons x rest ih =>
      rw [count_cons] at honce
      rw [asked_cons]
      rcases List.mem_cons.mp ha with rfl | ha
      · have hrest : (⟨kind, name, rest⟩ : Target).count k.name = 0 := by
          rw [hnamed, if_pos rfl] at honce
          omega
        rw [asked_eq_none (count_eq_zero_iff.mp hrest), asks_of_read hnamed hread, Option.none_or]
      · rw [ih (by omega) ha, Option.some_or]

/-- Exchanging two attributes, each for another use of its name, keeps a target sound. -/
theorem Sound.swap {a b a' b' : Attribute} {j k : Known} {rest : List Attribute}
    (ha : a.Uses j) (hb : b.Uses k) (ha' : a'.Uses j) (hb' : b'.Uses k)
    (h : (⟨kind, name, a :: b :: rest⟩ : Target).Sound) :
    (⟨kind, name, b' :: a' :: rest⟩ : Target).Sound := by
  have hcount : ∀ i : Known, (⟨kind, name, b' :: a' :: rest⟩ : Target).count i.name =
      (⟨kind, name, a :: b :: rest⟩ : Target).count i.name := by
    intro i
    simp only [count_cons, ha.isNamed_eq, hb.isNamed_eq, ha'.isNamed_eq, hb'.isNamed_eq]
    omega
  -- every attribute of the new target has a namesake on the old one
  have hnamesake : ∀ x ∈ b' :: a' :: rest, x.Understood ∧
      ∃ y ∈ a :: b :: rest, ∀ i : Known, x.isNamed i.name = y.isNamed i.name := by
    intro x hx
    rcases List.mem_cons.mp hx with rfl | hx
    · exact ⟨hb'.understood, b, by simp, fun i => by rw [hb'.isNamed_eq, hb.isNamed_eq]⟩
    · rcases List.mem_cons.mp hx with rfl | hx
      · exact ⟨ha'.understood, a, by simp, fun i => by rw [ha'.isNamed_eq, ha.isNamed_eq]⟩
      · have hold : x ∈ a :: b :: rest := by simp [hx]
        exact ⟨h.understood x hold, x, hold, fun _ => rfl⟩
  refine ⟨fun x hx i hi => ?_, fun i => ?_, fun hignored => ?_, fun hkeys => ?_,
    fun x hx => (hnamesake x hx).1⟩
  · obtain ⟨-, y, hy, hsame⟩ := hnamesake x hx
    exact h.placed y hy i (by rw [← hsame, hi])
  · rw [hcount]
    exact h.once i
  · rw [hcount] at hignored
    rw [hcount, hcount]
    exact h.exclusive hignored
  · rw [hcount] at hkeys
    rw [hcount]
    exact h.paired hkeys

end Target

/-! ## Declarations that differ in their own attributes -/

namespace Declaration

/-- The declaration with other attributes of its own, as another item has them. -/
def carrying (d : Declaration) (attributes : List Attribute) (item : Item) : Declaration :=
  { d with attributes, item }

/-- The targets within a declaration. -/
def innerTargets (d : Declaration) : List Target :=
  d.members.map StoredMember.target ++ d.variants.flatMap DeclaredVariant.targets

variable {d : Declaration} {attributes attributes' : List Attribute} {item item' : Item}

theorem targets_carrying : (d.carrying attributes item).targets =
    ⟨d.kind, d.typeName, attributes⟩ :: d.innerTargets := rfl

theorem sound_carrying_iff : (d.carrying attributes item).Sound ↔
    (⟨d.kind, d.typeName, attributes⟩ : Target).Sound ∧ ∀ t ∈ d.innerTargets, t.Sound := by
  rw [Sound, targets_carrying, List.forall_mem_cons]

/-- Outside of a field, sound attributes of its own add nothing to the findings of a declaration. -/
theorem findings_carrying (hkind : d.kind ≠ .field) (h : (d.carrying attributes item).Sound) :
    (d.carrying attributes item).findings = d.innerTargets.flatMap Known.findings := by
  have hown := Known.findings_eq_nil_of_sound (sound_carrying_iff.mp h).1 hkind
  rw [findings, targets_carrying, List.flatMap_cons, hown, List.nil_append]

/-- The code depends on the attributes of a declaration only through its options. -/
theorem build_carrying {o : ContainerOptions} (h : ContainerOptions.ofAttributes attributes = .ok o)
    (h' : ContainerOptions.ofAttributes attributes' = .ok o) :
    (d.carrying attributes item).build = (d.carrying attributes' item').build := by
  have hfirst : ContainerOptions.ofAttributes (d.carrying attributes item).attributes = .ok o := h
  have hsecond : ContainerOptions.ofAttributes (d.carrying attributes' item').attributes = .ok o :=
    h'
  unfold build
  rw [hfirst, hsecond]
  rfl

/-- Every sound struct has a coded type. -/
theorem Sound.exists_codedType_of_struct (h : d.Sound) (hident : d.ident.isSome = true)
    (hkind : d.kind = .struct) (s : KeyStrategy) :
    ∃ t, CodedType.ofDeclaration d s = .ok (some t) := by
  obtain ⟨t, ht⟩ := h.exists_codedType s
  cases t with
  | some t => exact ⟨t, ht⟩
  | none =>
      have hscopes := CodedType.keyScopes_eq_nil ht
      obtain ⟨ident, hident⟩ := Option.isSome_iff_exists.mp hident
      simp [keyScopes, hident, hkind] at hscopes

/-- The code of a coded type stands behind the initializer. -/
theorem build_fst {protocols : List Tokens} {init : Bool} {s : KeyStrategy}
    (ho : ContainerOptions.ofAttributes d.attributes = .ok ⟨some protocols, init, s⟩)
    {t : CodedType} (ht : CodedType.ofDeclaration d s = .ok (some t)) (c : Context) :
    (d.build c).1 = (d.initializerCode ⟨some protocols, init, s⟩ c).1 ++
      (codingCode t protocols (d.initializerCode ⟨some protocols, init, s⟩ c).2).1 := by
  simp only [build, ho, ht]
  rfl

/-- Without a protocol nothing is generated for a coded type. -/
theorem codingCode_nil (t : CodedType) (c : Context) : (codingCode t [] c).1 = [] := rfl

/-- With a protocol at least the keys are. -/
theorem codingCode_ne_nil {t : CodedType} {protocols : List Tokens}
    (h : CodedType.requested protocols = true) (c : Context) : (codingCode t protocols c).1 ≠ [] :=
  List.ne_nil_of_mem (keyDeclaration_mem_codingCode h c)

section Swap

variable {m i m' i' : Attribute} {rest : List Attribute}

theorem sound_swap_iff (hm : m.Uses .codable) (hi : i.Uses .memberInit) (hm' : m'.Uses .codable)
    (hi' : i'.Uses .memberInit) :
    (d.carrying (m :: i :: rest) item).Sound ↔ (d.carrying (i' :: m' :: rest) item').Sound := by
  rw [sound_carrying_iff, sound_carrying_iff]
  constructor
  · rintro ⟨hown, hinner⟩
    exact ⟨hown.swap hm hi hm' hi', hinner⟩
  · rintro ⟨hown, hinner⟩
    exact ⟨hown.swap hi' hm' hi hm, hinner⟩

/-- The options of a sound declaration that carries both markers. -/
theorem ofAttributes_of_sound (h : (d.carrying attributes item).Sound) (hm : m ∈ attributes)
    (hcodable : m.isNamed Known.codable.name = true) {protocols : List Tokens}
    (hprotocols : m.protocols = .ok protocols) (hi : i ∈ attributes)
    (hinit : i.isNamed Known.memberInit.name = true) :
    ContainerOptions.ofAttributes attributes =
      .ok ⟨some protocols, true,
        (asked .codingKeys Attribute.strategy attributes).getD .verbatim⟩ := by
  have hown := (sound_carrying_iff.mp h).1
  obtain ⟨o, ho⟩ := ContainerOptions.exists_ofAttributes_ok hown.all_understood
  have hasked : asked .codable Attribute.protocols attributes = some protocols :=
    Target.asked_of_mem (hown.once .codable) hm hcodable hprotocols
  have hhas : has .memberInit attributes = true := List.any_eq_true.mpr ⟨i, hi, hinit⟩
  have ho : ContainerOptions.ofAttributes attributes = .ok o := ho
  rw [ho, ContainerOptions.ofAttributes_eq_ok ho, hasked, hhas]

/-- Neither marker asks for a key strategy. -/
theorem asked_strategy_markers (hm : m.Uses .codable) (hi : i.Uses .memberInit) :
    asked .codingKeys Attribute.strategy (m :: i :: rest) =
        asked .codingKeys Attribute.strategy rest ∧
      asked .codingKeys Attribute.strategy (i :: m :: rest) =
        asked .codingKeys Attribute.strategy rest := by
  have hm : asks .codingKeys Attribute.strategy m = none := hm.asks_of_ne (by decide)
  have hi : asks .codingKeys Attribute.strategy i = none := hi.asks_of_ne (by decide)
  simp only [asked_cons, hm, hi, Option.or_none, and_self]

/-- What the rules reject is rejected in either order. -/
theorem expand_swap_of_not_sound (hm : m.Uses .codable) (hi : i.Uses .memberInit)
    (hm' : m'.Uses .codable) (hi' : i'.Uses .memberInit)
    (h : ¬ (d.carrying (m :: i :: rest) item).Sound) :
    (d.carrying (m :: i :: rest) item).expand.outcome =
        (d.carrying (i' :: m' :: rest) item').expand.outcome ∧
      (d.carrying (m :: i :: rest) item).expand.generated =
        (d.carrying (i' :: m' :: rest) item').expand.generated := by
  have h' : ¬ (d.carrying (i' :: m' :: rest) item').Sound := fun hsound =>
    h ((sound_swap_iff hm hi hm' hi').mpr hsound)
  rw [← harmless_findings_iff] at h h'
  rw [expand_of_findings h, expand_of_findings h']
  exact ⟨rfl, rfl⟩

/-- Two uses of the coding marker that read alike may stand on either side of the other marker. -/
theorem expand_swap (hkind : d.kind ≠ .field) (hm : m.Uses .codable) (hi : i.Uses .memberInit)
    (hm' : m'.Uses .codable) (hi' : i'.Uses .memberInit) {protocols : List Tokens}
    (hprotocols : m.protocols = .ok protocols) (hprotocols' : m'.protocols = .ok protocols) :
    (d.carrying (m :: i :: rest) item).expand.outcome =
        (d.carrying (i' :: m' :: rest) item').expand.outcome ∧
      (d.carrying (m :: i :: rest) item).expand.generated =
        (d.carrying (i' :: m' :: rest) item').expand.generated := by
  by_cases hsound : (d.carrying (m :: i :: rest) item).Sound
  · have hsound' : (d.carrying (i' :: m' :: rest) item').Sound :=
      (sound_swap_iff hm hi hm' hi').mp hsound
    have hfirst := ofAttributes_of_sound hsound (by simp) hm.named hprotocols (by simp) hi.named
    have hsecond :=
      ofAttributes_of_sound hsound' (by simp) hm'.named hprotocols' (by simp) hi'.named
    rw [(asked_strategy_markers hm hi).1] at hfirst
    rw [(asked_strategy_markers hm' hi').2] at hsecond
    have hbuild : (d.carrying (m :: i :: rest) item).build =
        (d.carrying (i' :: m' :: rest) item').build := build_carrying hfirst hsecond
    have hfindings := (findings_carrying hkind hsound).trans (findings_carrying hkind hsound').symm
    simp only [expand, hbuild, hfindings, and_self]
  · exact expand_swap_of_not_sound hm hi hm' hi' hsound

/-- If one use asks for a protocol and the other for none, then what comes of a sound struct shows
which of them was read: either it is rejected for its keys, or it has more code. -/
theorem expand_swap_ne (hident : d.ident.isSome = true) (hkind : d.kind = .struct)
    (hm : m.Uses .codable) (hi : i.Uses .memberInit) (hm' : m'.Uses .codable)
    (hi' : i'.Uses .memberInit) {protocols : List Tokens} (hprotocols : m.protocols = .ok protocols)
    (hrequested : CodedType.requested protocols = true) (hprotocols' : m'.protocols = .ok [])
    (hsound : (d.carrying (m :: i :: rest) item).Sound) :
    ¬ ((d.carrying (m :: i :: rest) item).expand.outcome =
        (d.carrying (i' :: m' :: rest) item').expand.outcome ∧
      (d.carrying (m :: i :: rest) item).expand.generated =
        (d.carrying (i' :: m' :: rest) item').expand.generated) := by
  have hfield : d.kind ≠ .field := by rw [hkind]; decide
  have hsound' : (d.carrying (i' :: m' :: rest) item').Sound :=
    (sound_swap_iff hm hi hm' hi').mp hsound
  have hfirst := ofAttributes_of_sound hsound (by simp) hm.named hprotocols (by simp) hi.named
  have hsecond := ofAttributes_of_sound hsound' (by simp) hm'.named hprotocols' (by simp) hi'.named
  rw [(asked_strategy_markers hm hi).1] at hfirst
  rw [(asked_strategy_markers hm' hi').2] at hsecond
  have hfindings := (findings_carrying hfield hsound).trans (findings_carrying hfield hsound').symm
  have hharmless' := harmless_findings_iff.mpr hsound'
  have hnone : asked .codable Attribute.protocols (i' :: m' :: rest) = some [] :=
    Target.asked_of_mem ((sound_carrying_iff.mp hsound').1.once .codable) (by simp) hm'.named
      hprotocols'
  -- without a protocol there are no keys to collide
  have hbuild' : Harmless ((d.carrying (i' :: m' :: rest) item').build
      ⟨0, (d.carrying (i' :: m' :: rest) item').findings⟩).2.diagnostics := by
    refine (hsound'.harmless_build_iff hharmless').mpr ?_
    rintro ⟨asking, hasking, direction, hfound⟩
    have hempty : asking = [] := Option.some.inj (hasking.symm.trans hnone)
    rw [hempty] at hfound
    cases hfound
  obtain ⟨t, ht⟩ := hsound.exists_codedType_of_struct hident hkind
    ((asked .codingKeys Attribute.strategy rest).getD .verbatim)
  rintro ⟨houtcome, hgenerated⟩
  rw [expand_of_harmless hharmless' hbuild'] at houtcome hgenerated
  rcases expand_cases (d.carrying (m :: i :: rest) item) with
    ⟨-, hharmless, hbuild⟩ | ⟨hrejected, -⟩
  · rw [expand_of_harmless hharmless hbuild, hfindings] at hgenerated
    have hlong := build_fst (d := d.carrying (m :: i :: rest) item) hfirst ht
      ⟨0, (d.carrying (i' :: m' :: rest) item').findings⟩
    have hshort := build_fst (d := d.carrying (i' :: m' :: rest) item') hsecond ht
      ⟨0, (d.carrying (i' :: m' :: rest) item').findings⟩
    rw [codingCode_nil, List.append_nil] at hshort
    -- both begin with the same initializer
    have hcode : (codingCode t protocols ((d.carrying (m :: i :: rest) item).initializerCode
        ⟨some protocols, true, (asked .codingKeys Attribute.strategy rest).getD .verbatim⟩
        ⟨0, (d.carrying (i' :: m' :: rest) item').findings⟩).2).1 = [] := by
      refine List.append_right_eq_self.mp (hlong.symm.trans (hgenerated.trans hshort))
    exact codingCode_ne_nil hrequested _ hcode
  · rw [hrejected] at houtcome
    cases houtcome

end Swap

end Declaration

/-! ## The two ways to expand a struct with both markers -/

namespace Item

/-- The item with an attribute in front of its own. -/
def withAttribute (s : Item) (a : Attribute) : Item := { s with attributes := a :: s.attributes }

/-- The declaration that the marker of a name with arguments expands. -/
def marked (name : String) (arguments : Tokens) (s : Item) : Declaration :=
  (Declaration.ofItem s).withMarker (.marker name arguments)

theorem marked_withAttribute (name : String) (arguments : Tokens) (s : Item) (a : Attribute) :
    (s.withAttribute a).marked name arguments = (Declaration.ofItem s).carrying
      (.marker name arguments :: a :: s.attributes) (s.withAttribute a) := by
  unfold marked Declaration.ofItem withAttribute
  cases s.body <;> rfl

end Item

namespace Attribute

theorem uses_memberInit {a : Attribute} {place : Span}
    (h : a.content = .path [.ident Known.memberInit.name place]) : a.Uses .memberInit := by
  constructor
  · simp [isNamed, path, h, Meta.pathTokens]
  · simp [Known.check, noArguments, h]

theorem uses_codable {a : Attribute} {place : Span} {protocols : List Tokens}
    (hpath : a.path = [.ident Known.codable.name place]) (h : a.protocols = .ok protocols) :
    a.Uses .codable := by
  constructor
  · simp [isNamed, hpath]
  · simp [Known.check, h, Except.map]

/-- A list in parentheses asks for the protocols it holds, wherever it ends. -/
theorem protocols_of_list {a : Attribute} {path body : Tokens} {delimiter : Delimiter}
    {span : Span} {protocols : List Tokens} (hcontent : a.content = .list path delimiter body span)
    (h : Language.parse Language.types .made body = .ok protocols) :
    a.protocols = .ok protocols := by
  simp only [Attribute.protocols, hcontent, parseArguments]
  exact Language.parse_eq_ok h _

end Attribute

theorem expandMarker_eq {name : String} {arguments tokens : Tokens} {s : Item}
    (h : Language.parse Language.item .made tokens = .ok s) :
    expandMarker name arguments tokens = (s.marked name arguments).expand.tokens := by
  rw [expandMarker, h]
  rfl

theorem Item.isSome_ident_of_struct {s : Item} (h : (Declaration.ofItem s).kind = .struct) :
    (Declaration.ofItem s).ident.isSome = true := by
  unfold Declaration.ofItem at h ⊢
  cases hbody : s.body with
  | plain kind name lead body =>
      rw [hbody] at h
      cases kind <;> cases h
  | _ => rfl

/-- A struct with both markers, the coding marker with a list of protocols in parentheses.  It does
not matter which marker is expanded first, unless the list is empty and the rules let the struct
pass: then the written list asks for nothing, and the one that is made anew for both protocols. -/
theorem Item.markers_agree_iff {s : Item} (hstruct : (Declaration.ofItem s).kind = .struct)
    {a : Tokens} {protocols : List Tokens}
    (ha : Language.parse Language.types .made a = .ok protocols)
    {init : Attribute} {p : Span} (hinit : init.content = .path [.ident Known.memberInit.name p])
    {coding : Attribute} {q span : Span}
    (hcoding : coding.content = .list [.ident Known.codable.name q] .paren a span)
    {withInit withCoding : Tokens}
    (hwithInit : Language.parse Language.item .made withInit = .ok (s.withAttribute init))
    (hwithCoding : Language.parse Language.item .made withCoding = .ok (s.withAttribute coding)) :
    let first := (s.withAttribute init).marked Known.codable.name a
    let second := (s.withAttribute coding).marked Known.memberInit.name []
    expandMarker Known.codable.name a withInit = first.expand.tokens ∧
    expandMarker Known.memberInit.name [] withCoding = second.expand.tokens ∧
    ((first.expand.outcome = second.expand.outcome ∧
        first.expand.generated = second.expand.generated) ↔ a ≠ [] ∨ ¬ first.Sound) := by
  intro first second
  refine ⟨expandMarker_eq hwithInit, expandMarker_eq hwithCoding, ?_⟩
  have hident := isSome_ident_of_struct hstruct
  have hfield : (Declaration.ofItem s).kind ≠ .field := by
    rw [hstruct]
    decide
  have hi : init.Uses .memberInit := uses_memberInit hinit
  have hi' : (Attribute.marker Known.memberInit.name []).Uses .memberInit := uses_memberInit rfl
  have hprotocols' : coding.protocols = .ok protocols := protocols_of_list hcoding ha
  have hm' : coding.Uses .codable :=
    uses_codable (by rw [Attribute.path, hcoding]; rfl) hprotocols'
  have hfirst : first = _ := marked_withAttribute _ _ s init
  have hsecond : second = _ := marked_withAttribute _ _ s coding
  rw [hfirst, hsecond]
  cases a with
  | cons t rest =>
      -- A list with a token is kept when the marker is made anew, so both uses read alike.
      have hprotocols : (Attribute.marker Known.codable.name (t :: rest)).protocols =
          .ok protocols := protocols_of_list rfl ha
      have hm : (Attribute.marker Known.codable.name (t :: rest)).Uses .codable :=
        uses_codable rfl hprotocols
      refine ⟨fun _ => .inl (List.cons_ne_nil t rest), fun _ => ?_⟩
      exact Declaration.expand_swap hfield hm hi hm' hi' hprotocols hprotocols'
  | nil =>
      -- Nothing in the parentheses makes a marker without them, which asks for both protocols.
      have hnone : protocols = [] := Except.ok.inj (ha.symm.trans (by rfl))
      have hm : (Attribute.marker Known.codable.name []).Uses .codable := uses_codable rfl rfl
      constructor
      · intro hsame
        refine .inr fun hsound => ?_
        exact Declaration.expand_swap_ne hident hstruct hm hi hm' hi' rfl (by decide)
          (hnone ▸ hprotocols') hsound hsame
      · rintro (hne | hunsound)
        · exact absurd rfl hne
        · exact Declaration.expand_swap_of_not_sound hm hi hm' hi' hunsound

/-! ## A struct with both markers -/

namespace Label

/-- A struct with one field and no attributes. -/
def plain : Item :=
  ⟨[], [], .struct [Make.ident "struct"] (Make.ident "Label") .none
    (.named [Journal.field [] "text" [Make.ident "String"]] .made) []⟩

/-- The marker of an initializer. -/
def init : Attribute := .make (.path [Make.ident Known.memberInit.name])

/-- The marker of coding with a list in parentheses. -/
def coding (list : Tokens) : Attribute :=
  .make (.list [Make.ident Known.codable.name] .paren list .made)

/-- With a protocol in the list the order of the markers does not matter. -/
theorem markers_agree_encodable :
    ((plain.withAttribute init).marked "codable" [Make.ident "Encodable"]).expand.outcome =
        ((plain.withAttribute (coding [Make.ident "Encodable"])).marked
          "member_init" []).expand.outcome ∧
      ((plain.withAttribute init).marked "codable" [Make.ident "Encodable"]).expand.generated =
        ((plain.withAttribute (coding [Make.ident "Encodable"])).marked
          "member_init" []).expand.generated := by
  have hlist : Language.parse Language.types .made [Make.ident "Encodable"] =
      .ok [[Make.ident "Encodable"]] := by rfl
  have hinit : Language.parse Language.item .made (plain.withAttribute init).tokens =
      .ok (plain.withAttribute init) := by rfl
  have hcoding : Language.parse Language.item .made
      (plain.withAttribute (coding [Make.ident "Encodable"])).tokens =
      .ok (plain.withAttribute (coding [Make.ident "Encodable"])) := by rfl
  obtain ⟨-, -, hagree⟩ := Item.markers_agree_iff rfl hlist rfl rfl hinit hcoding
  exact hagree.mpr (.inl (List.cons_ne_nil _ _))

/-- An empty list asks for nothing where it is read, and for the keys and both protocols where it is
made anew. -/
theorem markers_differ_empty :
    Language.parse Language.types .made [] = .ok [] ∧
    Language.parse Language.item .made (plain.withAttribute init).tokens =
      .ok (plain.withAttribute init) ∧
    Language.parse Language.item .made (plain.withAttribute (coding [])).tokens =
      .ok (plain.withAttribute (coding [])) ∧
    ((plain.withAttribute init).marked "codable" []).expand.generated.length = 4 ∧
    ((plain.withAttribute (coding [])).marked "member_init" []).expand.generated.length = 1 := by
  refine ⟨by rfl, by rfl, by rfl, ?_, ?_⟩
  · decide +kernel
  · decide +kernel

end Label

end KeyedCoding
