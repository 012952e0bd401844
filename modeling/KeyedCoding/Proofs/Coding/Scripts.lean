import KeyedCoding.Coding.Encoder
import KeyedCoding.Proofs.Value.Entries

/-!
# Scripts for an encoder

A script is a list of things to do to one encoder: write a single value, open the object, write at a
key what a script of its own leaves on a fresh encoder, give up, or try something and go on whether
or not it fails.  `Action.run` performs them by the steps of encoding.

The reference knows no encoder.  `Action.effects` says what an action comes to on the encoder it is
performed on, and `Effect.tree` says what is left by effects: null if there was none, the single
value if that was the last of them, and otherwise the object in which every key holds what was last
stored there since the last single value.  Running a script is shown to be the same as its effects
one after the other, and the effects to leave the tree of the reference.
-/

namespace KeyedCoding

/-! ## Scripts -/

/-- What can be done to an encoder. -/
inductive Action where
  /-- Write a single value. -/
  | value (v : Value)
  /-- Open the object. -/
  | container
  /-- Write at a key what a script leaves on an encoder of its own. -/
  | write (key : String) (body : List Action)
  /-- Give up with an error. -/
  | fail (error : CodingError)
  /-- Perform a script and go on, even if it fails. -/
  | attempt (body : List Action)

namespace Action

mutual

/-- Perform an action. -/
def run : Action → Encoding Unit
  | value v => Encoding.value v
  | container => Encoding.container
  | write key body => Encoding.nested key (runAll body)
  | fail error => throw error
  | attempt body => tryCatch (runAll body) fun _ => pure ()

/-- Perform actions up to the first that fails. -/
def runAll : List Action → Encoding Unit
  | [] => pure ()
  | a :: rest => do
      run a
      runAll rest

end

end Action

/-- The encoder after an action, whether or not the action fails. -/
def Encoder.after (e : Encoder) (a : Action) : Encoder :=
  match a.run e with
  | .ok _ e' => e'
  | .error _ e' => e'

/-! ## The reference -/

/-- What an action comes to on the encoder that it is performed on. -/
inductive Effect where
  /-- A single value replaces everything. -/
  | single (v : Value)
  /-- The object is open, and nothing is stored. -/
  | opened
  /-- The object is open, and a value is stored at a key. -/
  | stored (key : String) (v : Value)

namespace Effect

/-- Whether a single value was written. -/
def isSingle : Effect → Bool
  | single _ => true
  | _ => false

/-- The key and the value that are stored. -/
def pair? : Effect → Option (String × Value)
  | stored key v => some (key, v)
  | _ => none

/-- The effects behind the last single value. -/
def sinceSingle (effects : List Effect) : List Effect :=
  (effects.reverse.takeWhile fun x => !x.isSingle).reverse

/-- What was stored since the last single value, in the order of storing. -/
def storedSince (effects : List Effect) : List (String × Value) :=
  (sinceSingle effects).filterMap pair?

/-- The tree that effects leave. -/
def tree (effects : List Effect) : Value :=
  match effects.getLast? with
  | none => .null
  | some (single v) => v
  | some _ => .object (Entries.ofList (storedSince effects))

end Effect

namespace Action

mutual

/-- The effects of an action: a write stores the tree of its body unless that fails. -/
def effects : Action → List Effect
  | value v => [.single v]
  | container => [.opened]
  | write key body =>
      match failureOf body with
      | none => [.stored key (Effect.tree (effectsOf body))]
      | some _ => [.opened]
  | fail _ => []
  | attempt body => effectsOf body

/-- The error with which an action fails. -/
def failure : Action → Option CodingError
  | value _ => none
  | container => none
  | write _ body => failureOf body
  | fail error => some error
  | attempt _ => none

/-- The effects of actions up to the first that fails. -/
def effectsOf : List Action → List Effect
  | [] => []
  | a :: rest =>
      match failure a with
      | none => effects a ++ effectsOf rest
      | some _ => effects a

/-- The error of the first action that fails. -/
def failureOf : List Action → Option CodingError
  | [] => none
  | a :: rest => (failure a).or (failureOf rest)

end

end Action

/-! ## What effects leave -/

/-- An encoder after an effect. -/
def Encoder.bear (e : Encoder) : Effect → Encoder
  | .single v => e.hold v
  | .opened => e.opened
  | .stored key v => e.store key v

namespace Effect

/-- The effects behind the last single value after one more effect. -/
theorem sinceSingle_concat (effects : List Effect) (x : Effect) :
    sinceSingle (effects ++ [x]) = if x.isSingle then [] else sinceSingle effects ++ [x] := by
  cases x <;> simp [sinceSingle, isSingle]

theorem storedSince_single (effects : List Effect) (v : Value) :
    storedSince (effects ++ [single v]) = [] := by
  simp [storedSince, sinceSingle_concat, isSingle]

theorem storedSince_opened (effects : List Effect) :
    storedSince (effects ++ [opened]) = storedSince effects := by
  simp [storedSince, sinceSingle_concat, isSingle, pair?]

theorem storedSince_stored (effects : List Effect) (key : String) (v : Value) :
    storedSince (effects ++ [stored key v]) = storedSince effects ++ [(key, v)] := by
  simp [storedSince, sinceSingle_concat, isSingle, pair?]

end Effect

/-- What an encoder holds after effects: nothing before the first of them, the single value if that
was the last, and otherwise the entries stored since the last single value. -/
structure Encoder.Bears (e : Encoder) (effects : List Effect) : Prop where
  single : e.single = effects.getLast?.bind fun
    | .single v => some v
    | _ => none
  keyed : e.keyed = effects.getLast?.bind fun
    | .single _ => none
    | _ => some (Entries.ofList (Effect.storedSince effects))

namespace Encoder.Bears

variable {e : Encoder} {effects : List Effect}

/-- The entries held are those stored since the last single value, if any. -/
theorem getD_keyed (h : e.Bears effects) :
    e.keyed.getD [] = Entries.ofList (Effect.storedSince effects) := by
  rw [h.keyed]
  rcases List.eq_nil_or_concat effects with rfl | ⟨before, x, rfl⟩
  · rfl
  · cases x with
    | single v =>
        rw [List.concat_eq_append, Effect.storedSince_single]
        simp [Entries.ofList]
    | opened => simp
    | stored key v => simp

/-- One more effect. -/
theorem bear (h : e.Bears effects) (x : Effect) : (e.bear x).Bears (effects ++ [x]) := by
  cases x with
  | single v => constructor <;> simp [Encoder.bear, hold]
  | opened =>
      refine ⟨by simp [Encoder.bear, Encoder.opened], ?_⟩
      simp [Encoder.bear, Encoder.opened, h.getD_keyed, Effect.storedSince_opened]
  | stored key v =>
      refine ⟨by simp [Encoder.bear, store], ?_⟩
      simp [Encoder.bear, store, h.getD_keyed, Effect.storedSince_stored, Entries.ofList_concat]

theorem foldl (h : e.Bears effects) (more : List Effect) :
    (more.foldl Encoder.bear e).Bears (effects ++ more) := by
  induction more generalizing e effects with
  | nil => simpa using h
  | cons x rest ih =>
      have hrest := ih (h.bear x)
      rwa [List.append_assoc] at hrest

theorem toValue_eq_tree (h : e.Bears effects) : e.toValue = Effect.tree effects := by
  unfold toValue Effect.tree
  rw [h.single, h.keyed]
  cases effects.getLast? with
  | none => rfl
  | some x => cases x <;> rfl

/-- A single value and entries are never held both. -/
theorem single_or_keyed (h : e.Bears effects) : e.single = none ∨ e.keyed = none := by
  rw [h.single, h.keyed]
  cases effects.getLast? with
  | none => exact .inl rfl
  | some x =>
      cases x with
      | single v => exact .inr rfl
      | _ => exact .inl rfl

end Encoder.Bears

theorem Encoder.bears_fresh (path : CodingPath) : (Encoder.fresh path).Bears [] := ⟨rfl, rfl⟩

/-! ## Running is the same as its effects -/

/-- How a run ends that may have failed. -/
def Encoding.ending (failure : Option CodingError) (e : Encoder) :
    EStateM.Result CodingError Encoder Unit :=
  match failure with
  | none => .ok () e
  | some err => .error err e

namespace Action

mutual

/-- An action leaves its effects on the encoder, and fails as the reference says. -/
theorem run_eq (a : Action) (e : Encoder) :
    a.run e = Encoding.ending a.failure (a.effects.foldl Encoder.bear e) := by
  cases a with
  | value v => rfl
  | container => rfl
  | write key body =>
      have hbody := runAll_eq body (Encoder.fresh (e.path.child key))
      have hpath : e.opened.path = e.path := rfl
      simp only [run, Encoding.nested, hpath, hbody, effects, failure]
      have hbears := (Encoder.bears_fresh (e.path.child key)).foldl (effectsOf body)
      cases failureOf body with
      | none =>
          simp only [Encoding.ending, hbears.toValue_eq_tree]
          rfl
      | some err => rfl
  | fail error => rfl
  | attempt body =>
      have hbody := runAll_eq body e
      simp only [run, tryCatch, tryCatchThe, MonadExceptOf.tryCatch, EStateM.tryCatch, hbody,
        effects, failure]
      cases failureOf body <;> rfl

/-- Actions leave the effects of those that are performed. -/
theorem runAll_eq (actions : List Action) (e : Encoder) :
    runAll actions e =
      Encoding.ending (failureOf actions) ((effectsOf actions).foldl Encoder.bear e) := by
  cases actions with
  | nil => rfl
  | cons a rest =>
      have ha := run_eq a e
      have hrest := runAll_eq rest (a.effects.foldl Encoder.bear e)
      simp only [runAll, bind, EStateM.bind, ha, effectsOf, failureOf]
      cases a.failure with
      | none =>
          simp only [Encoding.ending, List.foldl_append, Option.none_or] at hrest ⊢
          exact hrest
      | some err => rfl

end

end Action

/-- The encoder after an action bears the effects of the action. -/
theorem Encoder.after_eq (e : Encoder) (a : Action) :
    e.after a = a.effects.foldl Encoder.bear e := by
  unfold after
  rw [a.run_eq]
  cases a.failure <;> rfl

/-- The encoder after actions bears their effects. -/
theorem Encoder.foldl_after_eq (e : Encoder) (actions : List Action) :
    actions.foldl Encoder.after e = (actions.flatMap Action.effects).foldl Encoder.bear e := by
  induction actions generalizing e with
  | nil => rfl
  | cons a rest ih => rw [List.foldl_cons, ih, after_eq, List.flatMap_cons, List.foldl_append]

/-! ## Keyed writes -/

namespace Action

variable {key : String} {body : List Action} {e e' : Encoder}

/-- A write that fails leaves the entries as they were. -/
theorem keyed_of_write_error {err : CodingError} (h : (write key body).run e = .error err e') :
    failureOf body = some err ∧ e'.keyed = some (e.keyed.getD []) := by
  rw [run_eq] at h
  simp only [effects, failure] at h
  cases hbody : failureOf body with
  | none =>
      rw [hbody] at h
      cases h
  | some err' =>
      rw [hbody] at h
      cases h
      exact ⟨rfl, rfl⟩

/-- A write that succeeds puts the tree of its body at its key. -/
theorem keyed_of_write_ok (h : (write key body).run e = .ok () e') :
    failureOf body = none ∧
      e'.keyed = some (Entries.put (e.keyed.getD []) key (Effect.tree (effectsOf body))) := by
  rw [run_eq] at h
  simp only [effects, failure] at h
  cases hbody : failureOf body with
  | none =>
      rw [hbody] at h
      cases h
      exact ⟨rfl, rfl⟩
  | some err =>
      rw [hbody] at h
      cases h

end Action

/-- A script leaves on a fresh encoder the tree of its effects, and never a single value and entries
both.  The entries are in key order, and each key has what was last stored there since the last
single value.  A further write that fails leaves them as they are, and one that succeeds changes its
own key only. -/
theorem Encoder.script_leaves_tree (path : CodingPath) (actions : List Action) :
    let e := actions.foldl Encoder.after (Encoder.fresh path)
    let effects := actions.flatMap Action.effects
    (e.single = none ∨ e.keyed = none) ∧
    e.toValue = Effect.tree effects ∧
    (∀ entries, e.keyed = some entries → Entries.Sorted entries ∧
      ∀ key, Entries.get? entries key = (Effect.storedSince effects).reverse.lookup key) ∧
    ∀ key body,
      (∀ err e', (Action.write key body).run e = .error err e' →
        Action.failureOf body = some err ∧ e'.keyed = some (e.keyed.getD [])) ∧
      ∀ e', (Action.write key body).run e = .ok () e' →
        Action.failureOf body = none ∧
        ∃ entries, e'.keyed = some entries ∧
          Entries.get? entries key = some (Effect.tree (Action.effectsOf body)) ∧
          ∀ other, other ≠ key →
            Entries.get? entries other = Entries.get? (e.keyed.getD []) other := by
  intro e effects
  have hbears : e.Bears effects := by
    have hfold := (bears_fresh path).foldl effects
    rwa [← foldl_after_eq, List.nil_append] at hfold
  refine ⟨hbears.single_or_keyed, hbears.toValue_eq_tree, fun entries hentries => ?_,
    fun key body => ⟨fun err e' => Action.keyed_of_write_error, fun e' hok => ?_⟩⟩
  · have hheld : entries = Entries.ofList (Effect.storedSince effects) := by
      rw [← hbears.getD_keyed, hentries, Option.getD_some]
    rw [hheld]
    exact ⟨Entries.sorted_ofList _, Entries.get?_ofList _⟩
  · obtain ⟨hbody, hkeyed⟩ := Action.keyed_of_write_ok hok
    refine ⟨hbody, _, hkeyed, Entries.get?_put_self _ _ _, fun other hother => ?_⟩
    exact Entries.get?_put_of_ne _ _ hother

namespace Action

/-- A number at a key. -/
def number (key : String) (n : Int64) : Action := write key [value (.int n)]

/-- A draft that is given up, and a clean copy in which one part fails and another is written
twice. -/
def draft : List Action :=
  [number "title" 1, value (.string "draft"), number "pages" 2,
    write "notes" [number "first" 3, fail ⟨.root, .custom "torn"⟩], number "pages" 4]

end Action

/-- Of the draft only the pages written last are left. -/
theorem Encoder.draft_leaves_pages :
    let e := Action.draft.foldl Encoder.after (Encoder.fresh .root)
    e.toValue = .object [("pages", .int 4)] ∧ (e.single = none ∨ e.keyed = none) ∧
      ∀ e', (Action.number "title" 5).run e = .ok () e' →
        ∃ entries, e'.keyed = some entries ∧ Entries.get? entries "title" = some (.int 5) ∧
          ∀ other, other ≠ "title" →
            Entries.get? entries other = Entries.get? (e.keyed.getD []) other := by
  intro e
  obtain ⟨hboth, htree, -, hwrite⟩ := Encoder.script_leaves_tree .root Action.draft
  refine ⟨htree, hboth, fun e' hok => ?_⟩
  exact ((hwrite "title" _).2 e' hok).2

end KeyedCoding
