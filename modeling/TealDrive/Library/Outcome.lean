import Mathlib.Tactic.TypeStar

namespace Outcome

/-!
# Reading back what a checked computation did

A fallible computation over `Except` is a chain of guards and bound results.
The lemmas here invert such a chain: a successful result names every bound
value and says that no guard refused.
-/

universe u v w

variable {Error : Type u} {Value : Type v} {Result : Type v}

/-- Return the error when the condition holds, and go on otherwise. -/
def refuse (condition : Bool) (error : Error) : Except Error PUnit.{v + 1} :=
  if condition then .error error else .ok ⟨⟩

/-- The value of an option, or the error when there is none. -/
def okOr (value : Option Value) (error : Error) : Except Error Value :=
  match value with
  | some value => .ok value
  | none => .error error

/-- Run a check only when a condition holds. -/
def whenever (condition : Bool) (check : Except Error PUnit.{v + 1}) : Except Error PUnit.{v + 1} :=
  if condition then check else .ok ⟨⟩

/-- Run a check on a value when there is one. -/
def forSome {Item : Type w} (value : Option Item) (check : Item -> Except Error PUnit.{v + 1}) :
    Except Error PUnit.{v + 1} :=
  match value with
  | some item => check item
  | none => .ok ⟨⟩

@[simp] theorem refuse_eq_ok {condition : Bool} {error : Error} {done : PUnit.{v + 1}} :
    refuse condition error = .ok done ↔ condition = false := by
  cases condition <;> simp [refuse]

@[simp] theorem okOr_eq_ok {value : Option Value} {error : Error} {result : Value} :
    okOr value error = .ok result ↔ value = some result := by
  cases value <;> simp [okOr]

@[simp] theorem whenever_eq_ok {condition : Bool} {check : Except Error PUnit.{v + 1}}
    {done : PUnit.{v + 1}} :
    whenever condition check = .ok done ↔ (condition = true -> check = .ok done) := by
  cases condition <;> simp [whenever]

@[simp] theorem forSome_eq_ok {Item : Type w} {value : Option Item}
    {check : Item -> Except Error PUnit.{v + 1}} {done : PUnit.{v + 1}} :
    forSome value check = .ok done ↔ forall item, value = some item -> check item = .ok done := by
  cases value <;> simp [forSome]

/-- A bind succeeds exactly when its first part does and its continuation
succeeds on that value. -/
@[simp] theorem bind_eq_ok {first : Except Error Value} {next : Value -> Except Error Result}
    {result : Result} :
    (first >>= next) = .ok result ↔ ∃ value, first = .ok value ∧ next value = .ok result := by
  cases first with
  | error problem =>
      constructor
      · intro impossible
        cases impossible
      · rintro ⟨_, impossible, _⟩
        cases impossible
  | ok value =>
      constructor
      · intro continued
        exact ⟨value, rfl, continued⟩
      · rintro ⟨_, same, continued⟩
        cases same
        exact continued

@[simp] theorem pure_eq_ok {value result : Value} :
    (pure value : Except Error Value) = .ok result ↔ value = result := by
  constructor
  · intro same
    exact Except.ok.inj same
  · intro same
    rw [same]
    rfl

@[simp] theorem throw_ne_ok {error : Error} {result : Value} :
    (throw error : Except Error Value) ≠ .ok result := by
  intro impossible
  cases impossible

/-! ## Errors that cannot come -/

theorem bind_ne_error {first : Except Error Value} {next : Value -> Except Error Result}
    {error : Error} (start : first ≠ .error error)
    (later : forall value, first = .ok value -> next value ≠ .error error) :
    (first >>= next) ≠ .error error := by
  cases first with
  | error problem =>
      intro same
      cases same
      exact start rfl
  | ok value => exact later value rfl

theorem refuse_ne_error {condition : Bool} {error other : Error} (different : other ≠ error) :
    (refuse condition other : Except Error PUnit.{v + 1}) ≠ .error error := by
  cases condition with
  | false => exact fun same => by cases same
  | true =>
      intro same
      cases same
      exact different rfl

theorem okOr_ne_error {value : Option Value} {error other : Error} (different : other ≠ error) :
    okOr value other ≠ .error error := by
  cases value with
  | some value => exact fun same => by cases same
  | none =>
      intro same
      cases same
      exact different rfl

/-! ## Loops -/

/-- A loop of checks succeeds exactly when every check does. -/
theorem forM_eq_ok {Item : Type w} {check : Item -> Except Error PUnit.{v + 1}}
    {items : List Item} {done : PUnit.{v + 1}} :
    items.forM check = .ok done ↔ forall item, item ∈ items -> check item = .ok done := by
  induction items with
  | nil =>
      constructor
      · intro _ item member
        exact absurd member List.not_mem_nil
      · intro _
        rfl
  | cons first rest ih =>
      have unfolded : (first :: rest).forM check =
          (check first >>= fun _ => rest.forM check) := List.forM_cons
      rw [unfolded, bind_eq_ok, List.forall_mem_cons]
      constructor
      · rintro ⟨value, here, later⟩
        exact ⟨here, ih.mp later⟩
      · rintro ⟨here, later⟩
        exact ⟨done, here, ih.mpr later⟩

end Outcome
