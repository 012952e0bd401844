import KeyedCoding.Derivation.Initializer
import KeyedCoding.Proofs.Sequence

/-!
# Constructors and setters as code

A constructor is a function around a struct literal, and a setter is a method that assigns to one
field.  Both are data here: `tokens` is their code and `run` is what a call of them does.  A field
is reached as code reaches it, by its name or its position, and the code of a value is left to an
`Evaluation`, of which nothing is assumed but that the name of a variable stands for what is bound
to it.

The code of an initializer is an `impl` block of a constructor and one setter for each of the
members that the constructor does not take.
-/

namespace KeyedCoding

/-! ## Struct literals -/

/-- A field of a struct, as code says which one. -/
inductive FieldPlace where
  | name (ident : String)
  | position (index : Nat)
deriving DecidableEq, Repr

/-- What stands behind a dot to reach a field. -/
def FieldPlace.tokens : FieldPlace → Tokens
  | name ident => [Make.ident ident]
  | position index => [Make.literal (toString index)]

/-- The field of a member. -/
def StoredMember.place (m : StoredMember) : FieldPlace :=
  if m.named then .name m.ident else .position m.index

theorem StoredMember.tokens_place (m : StoredMember) : m.place.tokens = m.accessor := by
  unfold place accessor
  cases m.named <;> rfl

/-- A struct literal: with names, each with the code of its value or as a shorthand for the variable
of that name; with positions; or with neither. -/
inductive StructLiteral where
  | named (fields : List (String × Option Tokens))
  | unnamed (values : List Tokens)
  | unit

namespace StructLiteral

/-- The code of a literal. -/
def tokens (l : StructLiteral) : Tokens :=
  let self := Make.ident "Self"
  match l with
  | named fields =>
      [self, Make.braces (Make.commaSeparated (fields.map fun (name, code) =>
        Make.ident name :: match code with
          | none => []
          | some value => Make.op ":" ++ value))]
  | unnamed values => [self, Make.parens (Make.commaSeparated values)]
  | unit => [self]

/-- The fields from a position on with the codes of their values. -/
def filledFrom : Nat → List Tokens → List (FieldPlace × Tokens)
  | _, [] => []
  | index, code :: rest => (.position index, code) :: filledFrom (index + 1) rest

/-- The fields that a literal fills, each with the code of its value. -/
def filled : StructLiteral → List (FieldPlace × Tokens)
  | named fields => fields.map fun (name, code) => (.name name, code.getD [Make.ident name])
  | unnamed values => filledFrom 0 values
  | unit => []

end StructLiteral

/-! ## Values of fields -/

/-- What the code of a value stands for: it depends on the variables and on the field it is for, and
the name of a variable stands for what is bound to it. -/
structure Evaluation (α : Type) where
  value : (String → Option α) → FieldPlace → Tokens → α
  value_variable : ∀ bound place name x, bound name = some x →
    value bound place [Make.ident name] = x

/-- The fields of a struct with their values. -/
abbrev FieldValues (α : Type) := List (FieldPlace × α)

/-- The fields after an assignment to one of them. -/
def FieldValues.assign {α : Type} (place : FieldPlace) (x : α) (fields : FieldValues α) :
    FieldValues α :=
  fields.map fun field => if field.1 = place then (place, x) else field

namespace FieldValues

variable {α : Type}

/-- An assignment leaves other fields alone. -/
theorem lookup_assign_of_ne {place other : FieldPlace} (hne : other ≠ place) (x : α)
    (fields : FieldValues α) : (fields.assign place x).lookup other = fields.lookup other := by
  induction fields with
  | nil => rfl
  | cons field rest ih =>
      obtain ⟨own, y⟩ := field
      have hrest : ((rest.map fun field => if field.1 = place then (place, x) else field)).lookup
          other = rest.lookup other := ih
      rw [FieldValues.assign, List.map_cons]
      by_cases hown : own = place
      · subst hown
        rw [if_pos rfl, lookup_cons_of_ne hne, lookup_cons_of_ne hne, hrest]
      · rw [if_neg hown, List.lookup_cons, List.lookup_cons, hrest]

/-- Assignments to different fields do not depend on their order. -/
theorem assign_comm {first second : FieldPlace} (hne : first ≠ second) (x y : α)
    (fields : FieldValues α) :
    (fields.assign first x).assign second y = (fields.assign second y).assign first x := by
  simp only [FieldValues.assign, List.map_map]
  refine List.map_congr_left fun field _ => ?_
  by_cases hfirst : field.1 = first
  · have hsecond : field.1 ≠ second := fun heq => hne (hfirst.symm.trans heq)
    simp [hfirst, hne]
  · by_cases hsecond : field.1 = second
    · simp [hsecond, hne.symm]
    · simp [hfirst, hsecond]

theorem assign_of_notMem {place : FieldPlace} {fields : FieldValues α}
    (h : place ∉ fields.map Prod.fst) (x : α) : fields.assign place x = fields := by
  have hsame : ∀ field ∈ fields, (if field.1 = place then (place, x) else field) = field := by
    intro field hfield
    refine if_neg ?_
    rintro rfl
    exact h (List.mem_map_of_mem hfield)
  rw [FieldValues.assign, List.map_congr_left hsame, List.map_id']

/-- Where fields are in a row, the one that an assignment is to has a position. -/
theorem assign_zip {places : List FieldPlace} (hplaces : places.Nodup) {n : Nat}
    {place : FieldPlace} (hplace : places[n]? = some place) (x : α) (xs : List α) :
    FieldValues.assign place x (places.zip xs) = places.zip (xs.set n x) := by
  induction places generalizing n xs with
  | nil => cases hplace
  | cons first rest ih =>
      rw [List.nodup_cons] at hplaces
      cases xs with
      | nil => rfl
      | cons y ys =>
          cases n with
          | zero =>
              obtain rfl := Option.some_inj.mp hplace
              have hrest : first ∉ (rest.zip ys).map Prod.fst := by
                rw [List.mem_map]
                rintro ⟨field, hfield, rfl⟩
                exact hplaces.1 (List.of_mem_zip hfield).1
              have hsame := assign_of_notMem hrest x
              rw [FieldValues.assign] at hsame
              rw [FieldValues.assign, List.zip_cons_cons, List.map_cons, if_pos rfl, hsame]
              rfl
          | succ n =>
              have hne : first ≠ place := by
                rintro rfl
                exact hplaces.1 (List.mem_of_getElem? hplace)
              have hrest := ih hplaces.2 hplace ys
              rw [FieldValues.assign] at hrest
              rw [FieldValues.assign, List.zip_cons_cons, List.map_cons, if_neg hne, hrest]
              rfl

end FieldValues

/-! ## Methods -/

/-- A function that makes a new value of its arguments: the parameters with their types, and the
literal that is its body. -/
structure ConstructorMethod where
  parameters : List (String × Tokens)
  literal : StructLiteral

namespace ConstructorMethod

variable {α : Type}

/-- The code of a constructor. -/
def tokens (m : ConstructorMethod) : Tokens :=
  let parameters := m.parameters.map fun (name, type) => Make.ident name :: Make.op ":" ++ type
  [Make.ident "fn", Make.ident "new", Make.parens (Make.commaSeparated parameters)]
    ++ Make.op "->" ++ [Make.ident "Self", Make.braces m.literal.tokens]

/-- What the arguments are bound to. -/
def bound (m : ConstructorMethod) (arguments : List α) (name : String) : Option α :=
  ((m.parameters.map Prod.fst).zip arguments).lookup name

/-- The fields of the new value; nothing if the arguments are too few or too many. -/
def run (m : ConstructorMethod) (e : Evaluation α) (arguments : List α) :
    Option (FieldValues α) :=
  if arguments.length = m.parameters.length then
    some (m.literal.filled.map fun (place, code) =>
      (place, e.value (m.bound arguments) place code))
  else none

end ConstructorMethod

/-- A method that assigns to one field of a value and gives the value back. -/
structure SetterMethod where
  name : String
  parameter : String
  /-- The type of the parameter. -/
  type : Tokens
  place : FieldPlace
  /-- The code of what is assigned. -/
  value : Tokens

namespace SetterMethod

variable {α : Type}

/-- The code of a setter. -/
def tokens (m : SetterMethod) : Tokens :=
  let self := Make.ident "self"
  let parameters := [Make.ident "mut", self] ++ Make.op ","
    ++ Make.ident m.parameter :: Make.op ":" ++ m.type
  let assignment := self :: Make.op "." ++ m.place.tokens ++ Make.op "=" ++ m.value ++ Make.op ";"
  [Make.ident "fn", Make.ident m.name, Make.parens parameters]
    ++ Make.op "->" ++ [Make.ident "Self", Make.braces (assignment ++ [self])]

/-- The fields of a value after a call. -/
def run (m : SetterMethod) (e : Evaluation α) (fields : FieldValues α) (argument : α) :
    FieldValues α :=
  let bound := fun name => if name = m.parameter then some argument else none
  fields.assign m.place (e.value bound m.place m.value)

/-- A setter that assigns its parameter. -/
theorem run_of_parameter {m : SetterMethod} (h : m.value = [Make.ident m.parameter])
    (e : Evaluation α) (fields : FieldValues α) (argument : α) :
    m.run e fields argument = fields.assign m.place argument := by
  rw [run, h, e.value_variable _ _ _ argument (if_pos rfl)]

end SetterMethod

namespace Code

/-- Attributes that say nothing of what the code behind them does: documentation and hints. -/
inductive Remarks : Tokens → Prop
  | nil : Remarks []
  | documented {rest : Tokens} (text : String) (hrest : Remarks rest) :
      Remarks (Make.hashed (Make.ident "doc" :: Make.op "=" ++ [Make.string text]) ++ rest)
  | mustUse {rest : Tokens} (hrest : Remarks rest) :
      Remarks (Make.hashed [Make.ident "must_use"] ++ rest)
  | allowed {rest : Tokens} (lint : Tokens) (hrest : Remarks rest) :
      Remarks (Make.allow lint ++ rest)

/-- Code offers a method to those who see what it is visible to. -/
inductive Offers (visibility method : Tokens) : Tokens → Prop
  | intro {remarks : Tokens} (hremarks : Remarks remarks) :
      Offers visibility method (remarks ++ visibility ++ method)

end Code

/-! ## The code of an initializer -/

/-- The setter of a member. -/
def InitParameter.method (p : InitParameter) : SetterMethod :=
  ⟨p.setter, "value", p.member.type, p.member.place, [Make.ident "value"]⟩

namespace Initializer

/-- The parameters of the constructor. -/
def taken (i : Initializer) : List InitParameter := i.parameters.filter InitParameter.required

/-- The members with setters. -/
def setters (i : Initializer) : List InitParameter := i.parameters.filter fun p => !p.required

/-- The literal that the constructor consists of. -/
def literal (i : Initializer) : StructLiteral :=
  match i.style with
  | .named =>
      .named (i.parameters.map fun p => (p.member.ident, p.preset.map Expression.assigned))
  | .unnamed => .unnamed (i.parameters.map InitParameter.value)
  | .unit => .unit

/-- The constructor. -/
def constructorMethod (i : Initializer) : ConstructorMethod :=
  ⟨i.taken.map fun p => (p.member.ident, p.member.type), i.literal⟩

/-- The setters. -/
def setterMethods (i : Initializer) : List SetterMethod := i.setters.map InitParameter.method

/-- Code is the `impl` block of an initializer: its constructor, and its setters in order. -/
inductive Consists (i : Initializer) : Tokens → Prop
  | intro {remarks constructor : Tokens} {setters : List Tokens} (hremarks : Code.Remarks remarks)
      (hconstructor : Code.Offers i.visibility i.constructorMethod.tokens constructor)
      (hsetters : List.Forall₂ (fun m => Code.Offers i.visibility m.tokens) i.setterMethods
        setters) :
      Consists i (remarks ++ Make.ident "impl" :: i.generics.implemented ++ [Make.ident i.ident]
        ++ i.generics.applied ++ i.generics.conditionTokens
        ++ [Make.braces (constructor ++ setters.flatten)])

theorem tokens_literal (i : Initializer) : i.literal.tokens = i.constructed := by
  unfold literal constructed StructLiteral.tokens
  cases i.style with
  | unnamed | unit => rfl
  | named =>
      simp only [List.map_map]
      congr 4
      refine List.map_congr_left fun p _ => ?_
      cases hpreset : p.preset <;>
        simp [InitParameter.required, InitParameter.value, hpreset]

theorem offers_constructor (i : Initializer) :
    Code.Offers i.visibility i.constructorMethod.tokens i.constructorTokens := by
  have hcode : i.constructorTokens = documented ("Creates a `" ++ i.ident ++ "` from its members.")
      ++ (Make.allow (Make.path false ["clippy", "too_many_arguments"]) ++ []) ++ i.visibility
      ++ i.constructorMethod.tokens := by
    unfold constructorTokens ConstructorMethod.tokens constructorMethod
    rw [tokens_literal, List.map_map]
    simp only [List.append_assoc, List.append_nil]
    rfl
  rw [hcode]
  exact .intro (.documented _ (.allowed _ .nil))

theorem offers_setter (i : Initializer) (p : InitParameter) :
    Code.Offers i.visibility p.method.tokens (i.setterTokens p) := by
  have hlint : Code.Remarks (if hasInfix ['_', '_'] p.setter.toList
      then Make.allow [Make.ident "non_snake_case"] else []) := by
    split
    · exact .allowed [Make.ident "non_snake_case"] .nil
    · exact .nil
  have hcode : i.setterTokens p =
      documented ("Replaces `" ++ p.member.name ++ "`, which `new` sets to its default.")
        ++ (Make.hashed [Make.ident "must_use"] ++ (if hasInfix ['_', '_'] p.setter.toList
          then Make.allow [Make.ident "non_snake_case"] else []))
        ++ i.visibility ++ p.method.tokens := by
    unfold setterTokens SetterMethod.tokens InitParameter.method
    simp only [StoredMember.tokens_place, List.append_assoc, List.cons_append]
  rw [hcode]
  exact .intro (.documented _ (.mustUse hlint))

/-- What is printed for an initializer is its constructor and its setters. -/
theorem consists (i : Initializer) : i.Consists i.tokens := by
  have hsetters : List.Forall₂ (fun m => Code.Offers i.visibility m.tokens) i.setterMethods
      (i.setters.map i.setterTokens) := by
    rw [setterMethods, List.forall₂_map_left_iff, List.forall₂_map_right_iff]
    exact List.forall₂_same.mpr fun p _ => i.offers_setter p
  have hcode := Consists.intro (i := i) (.allowed [Make.ident "dead_code"] .nil)
    i.offers_constructor hsetters
  rwa [← List.flatMap_def, List.append_nil] at hcode

end Initializer

end KeyedCoding
