import Mathlib.Data.List.Forall2
import QuerySplice.Proofs.Actions

/-!
# Actions that agree

What others have seen of a session decides nothing in it. Two actions agree when, in worlds that
differ in their traces at most, both end in one fault or in results that are related, and again in
such worlds. So actions that show different texts agree as long as they do the same otherwise.
-/

namespace QuerySplice.Action

variable {α β γ δ : Type}

/-- Both end in one fault, or in results related by `R`, in worlds that differ in their traces at
most. -/
inductive SameEnd (R : α → β → Prop) : Except Fault α × World → Except Fault β × World → Prop
  | ok {a : α} {b : β} {w : World} {trace : List Event} (h : R a b) :
      SameEnd R (.ok a, w) (.ok b, { w with trace })
  | error {fault : Fault} {w : World} {trace : List Event} :
      SameEnd R (.error fault, w) (.error fault, { w with trace })

/-- The actions have the same end wherever the same was done before. -/
def Agree (R : α → β → Prop) (action : Action α) (other : Action β) : Prop :=
  ∀ w trace, SameEnd R (action.perform w) (other.perform { w with trace })

variable {R : α → β → Prop} {S : γ → δ → Prop}

/-! ## Actions put together -/

theorem agree_pure {a : α} {b : β} (h : R a b) :
    Agree R (pure a : Action α) (pure b : Action β) := fun _ _ => .ok h

theorem agree_throw (fault : Fault) :
    Agree R (throw fault : Action α) (throw fault : Action β) := fun _ _ => .error

theorem sameEnd_eq (result : Except Fault α) (w : World) (trace : List Event) :
    SameEnd Eq (result, w) (result, { w with trace }) := by
  cases result with
  | ok a => exact .ok rfl
  | error fault => exact .error

theorem agree_liftM (x : Except Fault α) : Agree Eq (liftM x : Action α) (liftM x : Action α) :=
  sameEnd_eq x

/-- Worlds that differ in their traces at most. -/
def SameButTrace (w w' : World) : Prop := w' = { w with trace := w'.trace }

theorem agree_get : Agree SameButTrace (get : Action World) (get : Action World) := fun _ _ =>
  .ok rfl

theorem agree_modify {f : World → World}
    (h : ∀ w trace, SameButTrace (f w) (f { w with trace })) :
    Agree (fun _ _ => True) (modify f : Action Unit) (modify f : Action Unit) := by
  intro w trace
  rw [perform_modify, perform_modify, h w trace]
  exact .ok trivial

theorem agree_bind {action : Action α} {other : Action β} {next : α → Action γ}
    {otherNext : β → Action δ} (haction : Agree R action other)
    (hnext : ∀ a b, R a b → Agree S (next a) (otherNext b)) :
    Agree S (action >>= next) (other >>= otherNext) := by
  intro w trace
  rw [perform_bind, perform_bind]
  have hends := haction w trace
  generalize action.perform w = first at hends ⊢
  generalize other.perform { w with trace } = second at hends ⊢
  cases hends with
  | ok h => exact hnext _ _ h _ _
  | error => exact .error

/-- Where the results are the same, so is what comes behind. -/
theorem agree_bind_eq {action other : Action α} {next : α → Action γ} {otherNext : α → Action δ}
    (haction : Agree Eq action other) (hnext : ∀ a, Agree S (next a) (otherNext a)) :
    Agree S (action >>= next) (other >>= otherNext) :=
  agree_bind haction fun a _ hab => hab ▸ hnext a

theorem agree_tryCatch {action : Action α} {other : Action β} {handle : Fault → Action α}
    {otherHandle : Fault → Action β} (haction : Agree R action other)
    (hhandle : ∀ fault, Agree R (handle fault) (otherHandle fault)) :
    Agree R (tryCatch action handle) (tryCatch other otherHandle) := by
  intro w trace
  rw [perform_tryCatch, perform_tryCatch]
  have hends := haction w trace
  generalize action.perform w = first at hends ⊢
  generalize other.perform { w with trace } = second at hends ⊢
  cases hends with
  | ok h => exact .ok h
  | error => exact hhandle _ _ _

theorem agree_mapM {items : List γ} {action other : γ → Action α}
    (h : ∀ item, Agree Eq (action item) (other item)) :
    Agree Eq (items.mapM action) (items.mapM other) := by
  induction items with
  | nil => exact agree_pure rfl
  | cons item items ih =>
      simp only [List.mapM_cons]
      exact agree_bind_eq (h item) fun _ => agree_bind_eq ih fun _ => agree_pure rfl

theorem agree_forM {items : List γ} {action other : γ → Action Unit}
    (h : ∀ item, Agree (fun _ _ => True) (action item) (other item)) :
    Agree (fun _ _ => True) (items.forM action) (items.forM other) := by
  simp only [List.forM_eq_forM]
  induction items with
  | nil => exact agree_pure trivial
  | cons item items ih =>
      simp only [List.forM_cons]
      exact agree_bind (h item) fun _ _ _ => ih

/-- Agreeing actions can be followed one behind another, from related beginnings. -/
theorem agree_foldlM {items : List γ} {others : List δ} {step : α → γ → Action α}
    {otherStep : β → δ → Action β} (hitems : List.Forall₂ S items others)
    (hstep : ∀ a b item other, R a b → S item other → Agree R (step a item) (otherStep b other))
    {a : α} {b : β} (hab : R a b) : Agree R (items.foldlM step a) (others.foldlM otherStep b) := by
  induction hitems generalizing a b with
  | nil => exact agree_pure hab
  | cons hitem hitems ih =>
      simp only [List.foldlM_cons]
      exact agree_bind (hstep a b _ _ hab hitem) fun _ _ => ih

/-! ## Actions that only show something -/

/-- The action does nothing but what is in view of others. -/
def Shows (action : Action Unit) : Prop :=
  ∀ w, ∃ trace, action.perform w = (.ok (), { w with trace })

theorem shows_pure : Shows (pure ()) := fun w => ⟨w.trace, rfl⟩

theorem shows_emit (event : Event) : Shows (emit event) := fun _ => ⟨_, rfl⟩

theorem shows_bind {action : Action Unit} {next : Unit → Action Unit} (haction : Shows action)
    (hnext : Shows (next ())) : Shows (action >>= next) := by
  intro w
  obtain ⟨trace, htrace⟩ := haction w
  obtain ⟨trace', htrace'⟩ := hnext { w with trace }
  exact ⟨trace', by rw [perform_bind, htrace]; exact htrace'⟩

theorem shows_forM {items : List γ} {action : γ → Action Unit} (h : ∀ item, Shows (action item)) :
    Shows (items.forM action) := by
  rw [List.forM_eq_forM]
  induction items with
  | nil => exact shows_pure
  | cons item items ih =>
      rw [List.forM_cons]
      exact shows_bind (h item) ih

/-- It does not matter what is shown. -/
theorem Shows.agree {action other : Action Unit} (haction : Shows action) (hother : Shows other) :
    Agree (fun _ _ => True) action other := by
  intro w trace
  obtain ⟨shown, hshown⟩ := haction w
  obtain ⟨shown', hshown'⟩ := hother { w with trace }
  rw [hshown, hshown']
  exact .ok (w := { w with trace := shown }) trivial

theorem agree_emit (event other : Event) :
    Agree (fun _ _ => True) (emit event) (emit other) :=
  (shows_emit event).agree (shows_emit other)

theorem agree_reporting {action other : Action Unit} (h : Agree (fun _ _ => True) action other) :
    Agree (fun _ _ => True) (reporting action) (reporting other) := by
  refine agree_tryCatch h fun fault => ?_
  split
  · exact agree_emit _ _
  · exact agree_throw fault

end QuerySplice.Action
