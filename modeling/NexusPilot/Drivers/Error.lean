import Mathlib.Data.List.Forall2

/-!
# Errors of the connection engine

`IpcError`, the error that every driver operation returns to the frontend, with the constructors that
the modelled operations use. The field `runtime_impact` is the same for all of them and is left out.
-/

namespace Drivers

/-- `ErrorCode`. -/
inductive ErrorCode
  | authFailed
  | networkTimeout
  | operationTimeout
  | operationOutcomeUnknown
  | querySyntaxError
  | resourceNotFound
  | validationFailed
  | resourceConflict
  | featureUnavailable
  | permissionDenied
  | systemInternal
  | operationCanceled
  deriving DecidableEq

/-- `IpcError`. -/
structure IpcError where
  code : ErrorCode
  message : String
  details : Option String
  deriving DecidableEq

/-- `IpcResult`. -/
abbrev IpcResult (α : Type) := Except IpcError α

/-! ### Computations that may fail -/

section Results

variable {ε α β : Type}

variable {x : Except ε α} {f : α → Except ε β} {c : Prop} {e : ε} {a : α} {r : List β}
  {R : α → β → Prop} {l : List α}

theorem bind_eq_ok_iff {r : β} :
    (x >>= f) = .ok r ↔ ∃ a, x = .ok a ∧ f a = .ok r := by
  cases x with
  | error e => exact ⟨fun h ↦ (nomatch h), fun ⟨_, h, _⟩ ↦ (nomatch h)⟩
  | ok a => exact ⟨fun h ↦ ⟨a, rfl, h⟩, fun ⟨_, ha, h⟩ ↦ by cases ha; exact h⟩

/-- A computation that succeeds went through its first part. -/
theorem exists_of_bind_eq_ok {r : β} (h : (x >>= f) = .ok r) : ∃ a, x = .ok a ∧ f a = .ok r :=
  bind_eq_ok_iff.1 h

/-- A check that succeeds did not refuse. -/
theorem ite_error_eq_ok_iff [Decidable c] {r : α} :
    (if c then .error e else x) = .ok r ↔ ¬ c ∧ x = .ok r := by
  by_cases h : c
  · simp [h]
  · simp [h]

/-- A check that succeeds passed. -/
theorem ite_ok_else_error_eq_ok_iff [Decidable c] {r : α} :
    (if c then .ok a else .error e : Except ε α) = .ok r ↔ c ∧ a = r := by
  by_cases h : c
  · simp [h]
  · simp [h]

/-- `mapM`, element by element. -/
theorem mapM_eq_ok_iff {f : α → Except ε β} :
    ∀ {l : List α} {r : List β}, l.mapM f = .ok r ↔ List.Forall₂ (fun a b ↦ f a = .ok b) l r
  | [], r => by
    rw [List.mapM_nil, List.forall₂_nil_left_iff]
    exact ⟨fun h ↦ by cases h; rfl, fun h ↦ by rw [h]; rfl⟩
  | a :: l, r => by
    simp only [List.mapM_cons, bind_eq_ok_iff, List.forall₂_cons_left_iff, mapM_eq_ok_iff]
    constructor
    · rintro ⟨b, hb, bs, hbs, h⟩
      cases h
      exact ⟨b, bs, hb, hbs, rfl⟩
    · rintro ⟨b, bs, hb, hbs, rfl⟩
      exact ⟨b, hb, bs, hbs, rfl⟩

/-- `forM`, element by element. -/
theorem forM_eq_ok_iff {f : α → Except ε Unit} :
    ∀ {l : List α}, l.forM f = .ok () ↔ ∀ a ∈ l, f a = .ok ()
  | [] => ⟨fun _ _ h ↦ (nomatch h), fun _ ↦ rfl⟩
  | a :: l => by
    show (f a >>= fun _ ↦ l.forM f) = .ok () ↔ _
    rw [bind_eq_ok_iff, List.forall_mem_cons, ← forM_eq_ok_iff]
    exact ⟨fun ⟨_, ha, hl⟩ ↦ ⟨ha, hl⟩, fun ⟨ha, hl⟩ ↦ ⟨(), ha, hl⟩⟩

theorem exists_left_of_forall₂ (h : List.Forall₂ R l r) {b : β} (hb : b ∈ r) : ∃ a ∈ l, R a b := by
  induction h with
  | nil => cases hb
  | cons hab _ ih =>
    obtain rfl | hb := List.mem_cons.1 hb
    · exact ⟨_, List.mem_cons_self, hab⟩
    · obtain ⟨a, ha, hr⟩ := ih hb
      exact ⟨a, List.mem_cons_of_mem _ ha, hr⟩

theorem exists_right_of_forall₂ (h : List.Forall₂ R l r) (ha : a ∈ l) : ∃ b ∈ r, R a b :=
  exists_left_of_forall₂ h.flip ha

/-- A computation whose results are those of a function succeeds on a list with the function's values,
or not at all. -/
theorem mapM_eq_ok_iff_of_eq {g : α → β} (hf : ∀ a b, f a = .ok b → b = g a) :
    l.mapM f = .ok r ↔ (∀ a ∈ l, ∃ b, f a = .ok b) ∧ r = l.map g := by
  rw [mapM_eq_ok_iff]
  constructor
  · intro h
    refine ⟨fun a ha ↦ ?_, ?_⟩
    · obtain ⟨b, -, hb⟩ := exists_right_of_forall₂ h ha
      exact ⟨b, hb⟩
    · induction h with
      | nil => rfl
      | cons hab _ ih => rw [List.map_cons, ← hf _ _ hab, ih]
  · rintro ⟨hall, rfl⟩
    refine List.forall₂_map_right_iff.2 (List.forall₂_same.2 fun a ha ↦ ?_)
    obtain ⟨b, hb⟩ := hall a ha
    rw [hb, hf a b hb]

end Results

namespace IpcError

/-- `IpcError::query_syntax`. -/
def querySyntax (message details : String) : IpcError :=
  ⟨.querySyntaxError, message, some details⟩

/-- `IpcError::resource_not_found`. -/
def notFound (message : String) : IpcError :=
  ⟨.resourceNotFound, message, none⟩

/-- `IpcError::validation_failed`. -/
def invalid (message : String) : IpcError :=
  ⟨.validationFailed, message, none⟩

/-- `IpcError::resource_conflict`. -/
def conflict (message : String) : IpcError :=
  ⟨.resourceConflict, message, none⟩

/-- `IpcError::system_internal`. -/
def internal (message details : String) : IpcError :=
  ⟨.systemInternal, message, some details⟩

end IpcError

end Drivers
