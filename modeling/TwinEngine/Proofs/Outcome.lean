/-!
Contract: computations that may give no result, taken apart.

Owns: what the parts of a computation gave when the whole gave a result or a fault, for sequences,
lists and folds.
-/

namespace TwinEngine

variable {α β ε σ : Type}

theorem bind_eq_some :
    value >>= next = some result ↔ ∃ item, value = some item ∧ next item = some result :=
  Option.bind_eq_some_iff

section

variable {outcome : Except ε α} {next : α → Except ε β} {f : α → β}

theorem bind_eq_ok :
    outcome >>= next = .ok result ↔ ∃ value, outcome = .ok value ∧ next value = .ok result := by
  cases outcome <;> simp [bind, Except.bind]

theorem bind_eq_error : outcome >>= next = .error fault ↔
      outcome = .error fault ∨ ∃ value, outcome = .ok value ∧ next value = .error fault := by
  cases outcome <;> simp [bind, Except.bind]

theorem map_eq_ok : outcome.map f = .ok final ↔ ∃ value, outcome = .ok value ∧ f value = final := by
  cases outcome <;> simp [Except.map]

theorem ok_of_toOption (found : outcome.toOption = some result) : outcome = .ok result := by
  cases outcome with
  | error => cases found
  | ok => exact congrArg Except.ok (Option.some.inj found)

/-- A result with a property that can be decided. -/
theorem exists_ok (outcome : Except ε α) (holds : α → Prop) [DecidablePred holds]
    (decided : outcome.toOption.any (holds ·) = true) :
    ∃ value, outcome = .ok value ∧ holds value := by
  cases outcome with
  | error => cases decided
  | ok value => exact ⟨value, rfl, of_decide_eq_true decided⟩

end

section

variable {items : List α} {images : List β}

theorem mapM_eq_some : items.mapM f = some images ↔ items.map f = images.map some := by
  induction items generalizing images with
  | nil => cases images <;> simp
  | cons _ _ ih => cases images <;> simp [ih, Option.bind_eq_some_iff]

variable {f : α → Except ε β}

theorem mapM_eq_ok : items.mapM f = .ok images ↔ items.map f = images.map .ok := by
  induction items generalizing images with
  | nil => cases images <;> simp [pure, Except.pure]
  | cons _ _ ih => cases images <;> simp [ih, bind_eq_ok, pure, Except.pure]

variable (mapped : items.mapM f = .ok images)

include mapped

theorem image_of_mapM {place : Nat} (here : items[place]? = some item) :
    ∃ image, images[place]? = some image ∧ f item = .ok image := by
  have each := congrArg (·[place]?) (mapM_eq_ok.mp mapped)
  simp only [List.getElem?_map, here, Option.map_some] at each
  obtain ⟨image, there, same⟩ := Option.map_eq_some_iff.mp each.symm
  exact ⟨image, there, same.symm⟩

theorem preimage_of_mapM {place : Nat} (here : images[place]? = some image) :
    ∃ item, items[place]? = some item ∧ f item = .ok image := by
  have each := congrArg (·[place]?) (mapM_eq_ok.mp mapped)
  simp only [List.getElem?_map, here, Option.map_some] at each
  exact Option.map_eq_some_iff.mp each

theorem length_of_mapM : images.length = items.length := by
  simpa using (congrArg List.length (mapM_eq_ok.mp mapped)).symm

end

/-! ## Folds -/

section

variable (holds : List α → σ → Prop) {items : List α} {first : σ} (start : holds [] first)

include start

theorem foldlM_invariant {step : σ → α → Option σ}
    (next : ∀ {done item before after}, items[done.length]? = some item →
      holds done before → step before item = some after → holds (done ++ [item]) after)
    (folded : items.foldlM step first = some last) : holds items last := by
  suffices general : ∀ rest done before, items = done ++ rest →
      holds done before → rest.foldlM step before = some last → holds items last from
    general items [] first rfl start folded
  intro rest
  induction rest with
  | nil =>
    intro done before split held ended
    cases ended
    rw [split, List.append_nil]
    exact held
  | cons item rest ih =>
    intro done before split held ended
    obtain ⟨after, stepped, ended⟩ := bind_eq_some.mp ended
    exact ih (done ++ [item]) after (by simp [split]) (next (by simp [split]) held stepped) ended

theorem foldlM_keeps {step : σ → α → Except ε σ}
    (next : ∀ {done item before after}, items[done.length]? = some item →
      holds done before → step before item = .ok after → holds (done ++ [item]) after)
    (folded : items.foldlM step first = .ok last) : holds items last := by
  have folds : items.foldlM (fun before item => (step before item).toOption) first = some last := by
    clear start next
    induction items generalizing first with
    | nil => exact congrArg Except.toOption folded
    | cons _ _ ih =>
      obtain ⟨_, stepped, folded⟩ := bind_eq_ok.mp folded
      rw [List.foldlM_cons, stepped]
      exact ih folded
  exact foldlM_invariant holds start
    (fun here held stepped => next here held (ok_of_toOption stepped)) folds

end

end TwinEngine
