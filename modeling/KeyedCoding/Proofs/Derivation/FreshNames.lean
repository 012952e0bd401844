import KeyedCoding.Derivation.Synthesis
import Mathlib.Data.List.Nodup

/-!
# Fresh names

The names that an expansion makes up carry a number that is counted on with every name.  `Drawn`
says which names were drawn between two states of the count, in order.  Every step of the synthesis
draws the names that occur in the code it makes and no others, so all of them differ.
-/

namespace KeyedCoding

/-! ## Numbered names -/

namespace Context

/-- The characters behind the last underscore. -/
def behindUnderscore (name : List Char) : List Char :=
  (name.reverse.takeWhile fun c => c != '_').reverse

theorem behindUnderscore_nameOf (use : String) (number : Nat) :
    behindUnderscore (nameOf use number).toList = Nat.toDigits 10 number := by
  -- The use may hold underscores of its own, but digits do not.
  have hdigits : ∀ c ∈ (Nat.toDigits 10 number).reverse, (c != '_') = true := by
    intro c hc
    have hdigit := Nat.isDigit_of_mem_toDigits (by omega) (by omega) (List.mem_reverse.mp hc)
    have hne : c ≠ '_' := by
      rintro rfl
      exact absurd hdigit (by decide)
    simpa using hne
  have hname : (nameOf use number).toList.reverse = (Nat.toDigits 10 number).reverse
      ++ '_' :: ("__codable_" ++ use).toList.reverse := by
    simp [nameOf, Nat.toString_eq_repr, Nat.toList_repr]
  rw [behindUnderscore, hname, List.takeWhile_append_of_pos hdigits,
    List.takeWhile_cons_of_neg (by simp), List.append_nil, List.reverse_reverse]

/-- Names with different numbers differ, whatever they are used for. -/
theorem number_eq_of_nameOf_eq {use use' : String} {j k : Nat}
    (h : nameOf use j = nameOf use' k) : j = k := by
  have hdigits : Nat.toDigits 10 j = Nat.toDigits 10 k := by
    rw [← behindUnderscore_nameOf use j, h, behindUnderscore_nameOf]
  have hread := congrArg (fun digits => Nat.ofDigitChars 10 digits 0) hdigits
  simpa using hread

end Context

/-! ## Names drawn in a row -/

/-- Names that are drawn one after the other while the count goes from one number to another. -/
inductive Drawn : Nat → Nat → List String → Prop
  | nil (k : Nat) : Drawn k k []
  | cons {k l : Nat} {names : List String} (use : String) (h : Drawn (k + 1) l names) :
      Drawn k l (Context.nameOf use k :: names)

namespace Drawn

variable {k l m : Nat} {names names' : List String}

theorem append (h : Drawn k l names) (h' : Drawn l m names') : Drawn k m (names ++ names') := by
  induction h with
  | nil k => exact h'
  | cons use _ ih => exact .cons use (ih h')

theorem length_eq (h : Drawn k l names) : l = k + names.length := by
  induction h with
  | nil k => rfl
  | cons use _ ih =>
      rw [ih, List.length_cons]
      omega

theorem le_of_mem (h : Drawn k l names) {name : String} (hname : name ∈ names) :
    ∃ use number, name = Context.nameOf use number ∧ k ≤ number := by
  induction h with
  | nil k => cases hname
  | cons use _ ih =>
      rcases List.mem_cons.mp hname with rfl | hname
      · exact ⟨use, _, rfl, Nat.le_refl _⟩
      · obtain ⟨use', number, rfl, hle⟩ := ih hname
        exact ⟨use', number, rfl, by omega⟩

/-- The count only grows, so no name is drawn twice. -/
theorem nodup (h : Drawn k l names) : names.Nodup := by
  induction h with
  | nil k => exact List.nodup_nil
  | @cons k l names use h ih =>
      -- every later name has a number above `k`
      refine List.nodup_cons.mpr ⟨fun hmem => ?_, ih⟩
      obtain ⟨use', number, heq, hle⟩ := h.le_of_mem hmem
      have hnumber := Context.number_eq_of_nameOf_eq heq
      omega

end Drawn

/-! ## The names in generated code -/

/-- The names that a binding introduces for itself. -/
def Binding.freshNames (b : Binding) : List String :=
  match b.reading with
  | .defaulted _ _ _ temporary _ => [temporary]
  | _ => []

/-- The names that an arm introduces besides those of the members. -/
def DecodeArm.freshNames (a : DecodeArm) : List String :=
  a.decoder :: a.container :: a.bindings.flatMap Binding.freshNames

/-- The names that a decoding method introduces besides those of the members. -/
def DecodeBody.freshNames : DecodeBody → List String
  | .struct container _ bindings _ => container :: bindings.flatMap Binding.freshNames
  | .enum container _ tag arms => container :: tag :: arms.flatMap DecodeArm.freshNames

/-- The names that an arm introduces besides those of the members. -/
def EncodeArm.freshNames (a : EncodeArm) : List String := [a.encoder, a.container]

/-- The names that an encoding method introduces besides those of the members. -/
def EncodeBody.freshNames : EncodeBody → List String
  | .struct container _ _ => [container]
  | .enum container _ arms => container :: arms.flatMap EncodeArm.freshNames
  | .never => []

/-- A step draws the names that occur in what it makes. -/
def Expanding.Draws {α : Type} (step : Expanding α) (names : α → List String) : Prop :=
  ∀ c, Drawn c.nextName (step c).2.nextName (names (step c).1)

open Expanding

namespace CodedMember

theorem draws_binding (keys container : String) (m : CodedMember) :
    Draws (m.binding keys container) Binding.freshNames := by
  intro c
  unfold binding
  split
  · cases m.options.default with
    | some e => exact .cons "value" (.nil _)
    | none => exact .nil _
  · exact .nil _

theorem draws_bindings (keys container : String) (members : List CodedMember) :
    Draws (bindings keys container members) (List.flatMap Binding.freshNames) := by
  induction members with
  | nil => exact fun c => .nil _
  | cons m rest ih => exact fun c => (draws_binding keys container m c).append (ih _)

end CodedMember

namespace CodedCase

theorem draws_decodeArm (keys : String) (case : CodedCase) :
    Draws (case.decodeArm keys) DecodeArm.freshNames := by
  intro c
  have hmembers := CodedMember.draws_bindings keys (Context.nameOf "container" (c.nextName + 1))
    case.members { c with nextName := c.nextName + 2 }
  exact .cons "decoder" (.cons "container" hmembers)

theorem draws_decodeArms (keys : String) (cases : List CodedCase) :
    Draws (decodeArms keys cases) (List.flatMap DecodeArm.freshNames) := by
  induction cases with
  | nil => exact fun c => .nil _
  | cons case rest ih => exact fun c => (draws_decodeArm keys case c).append (ih _)

theorem draws_encodeArm (keys : String) (case : CodedCase) :
    Draws (case.encodeArm keys) EncodeArm.freshNames := fun _ =>
  .cons "encoder" (.cons "container" (.nil _))

theorem draws_encodeArms (keys : String) (cases : List CodedCase) :
    Draws (encodeArms keys cases) (List.flatMap EncodeArm.freshNames) := by
  induction cases with
  | nil => exact fun c => .nil _
  | cons case rest ih => exact fun c => (draws_encodeArm keys case c).append (ih _)

end CodedCase

namespace CodedType

theorem draws_decodeBody (t : CodedType) : Draws t.decodeBody DecodeBody.freshNames := by
  intro c
  unfold decodeBody
  cases t.body with
  | struct style members =>
      have hmembers := CodedMember.draws_bindings t.keys.ident
        (Context.nameOf "container" c.nextName) members { c with nextName := c.nextName + 1 }
      exact .cons "container" hmembers
  | enum cases =>
      have harms := CodedCase.draws_decodeArms t.keys.ident cases
        { c with nextName := c.nextName + 2 }
      exact .cons "container" (.cons "tag" harms)

theorem draws_encodeBody (t : CodedType) : Draws t.encodeBody EncodeBody.freshNames := by
  intro c
  unfold encodeBody
  cases t.body with
  | struct style members => exact .cons "container" (.nil _)
  | enum cases =>
      cases cases with
      | nil => exact .nil _
      | cons case rest =>
          have harms := CodedCase.draws_encodeArms t.keys.ident (case :: rest)
            { c with nextName := c.nextName + 1 }
          exact .cons "container" harms

end CodedType

end KeyedCoding
