import QuerySplice.Session.World

/-!
# Laws of actions

What an action does is what performing it in a world leads to: a result or a fault, and the world
after it. Performing is taken through the ways in which actions are put together.
-/

namespace QuerySplice.Action

variable {α β : Type}

@[simp] theorem perform_pure (a : α) (w : World) : (pure a : Action α).perform w = (.ok a, w) := rfl

@[simp] theorem perform_throw (fault : Fault) (w : World) :
    (throw fault : Action α).perform w = (.error fault, w) := rfl

@[simp] theorem perform_get (w : World) : (get : Action World).perform w = (.ok w, w) := rfl

@[simp] theorem perform_set (w' w : World) : (set w' : Action Unit).perform w = (.ok (), w') := rfl

@[simp] theorem perform_modify (f : World → World) (w : World) :
    (modify f : Action Unit).perform w = (.ok (), f w) := rfl

/-- What can be computed without the world leaves it alone. -/
@[simp] theorem perform_liftM (x : Except Fault α) (w : World) :
    (liftM x : Action α).perform w = (x, w) := rfl

/-- An action behind another is not done when that one ends in a fault. -/
theorem perform_bind (action : Action α) (next : α → Action β) (w : World) :
    (action >>= next).perform w =
      match action.perform w with
      | (.ok a, w') => (next a).perform w'
      | (.error fault, w') => (.error fault, w') := by
  simp only [perform, ExceptT.run_bind, StateT.run_bind]
  generalize StateT.run (ExceptT.run action) w = outcome
  cases outcome with
  | mk result w' => cases result <;> rfl

/-- A fault is handled in the world in which it was raised. -/
theorem perform_tryCatch (action : Action α) (handle : Fault → Action α) (w : World) :
    (tryCatch action handle).perform w =
      match action.perform w with
      | (.ok a, w') => (.ok a, w')
      | (.error fault, w') => (handle fault).perform w' := by
  simp only [perform, ExceptT.run_tryCatch, StateT.run_bind]
  generalize StateT.run (ExceptT.run action) w = outcome
  cases outcome with
  | mk result w' => cases result <;> rfl

theorem perform_emit (event : Event) (w : World) :
    (emit event).perform w = (.ok (), { w with trace := w.trace ++ [event] }) := rfl

/-- A sequence ends in a result if its parts do, one behind the other. -/
theorem perform_bind_eq_ok {action : Action α} {next : α → Action β} {b : β} {w w' : World} :
    (action >>= next).perform w = (.ok b, w') ↔
      ∃ a w₁, action.perform w = (.ok a, w₁) ∧ (next a).perform w₁ = (.ok b, w') := by
  rw [perform_bind]
  rcases action.perform w with ⟨fault | a, w₁⟩
  · simp
  · constructor
    · intro h
      exact ⟨a, w₁, rfl, h⟩
    · rintro ⟨a', w₂, h, hnext⟩
      cases h
      exact hnext

/-- Actions that do the same in every world are the same. -/
theorem ext_perform {action other : Action α} (h : ∀ w, action.perform w = other.perform w) :
    action = other :=
  funext h

/-- What comes behind an action matters for the results of that action only. -/
theorem bind_congr_of_perform {action : Action α} {next other : α → Action β}
    (h : ∀ w a w', action.perform w = (.ok a, w') → next a = other a) :
    action >>= next = action >>= other := by
  refine ext_perform fun w => ?_
  rw [perform_bind, perform_bind]
  cases hperform : action.perform w with
  | mk result w' =>
      cases result with
      | error fault => rfl
      | ok a => simp only [h w a w' hperform]

/-! ## Triples -/

/-- From a world of the kind `I` the action leads to a world of this kind, and it ends in a result
of the kind `Q` or in a fault of the kind `E`. -/
def Meets (I : World → Prop) (Q : α → Prop) (E : Fault → Prop) (action : Action α) : Prop :=
  ∀ w, I w → I (action.perform w).2 ∧
    (∀ a, (action.perform w).1 = .ok a → Q a) ∧
      ∀ fault, (action.perform w).1 = .error fault → E fault

variable {I : World → Prop} {Q : α → Prop} {R : β → Prop} {E F : Fault → Prop}

/-- What is said of the faults may be weakened. -/
theorem Meets.mono {action : Action α} (h : Meets I Q E action) (hE : ∀ fault, E fault → F fault) :
    Meets I Q F action := by
  intro w hw
  obtain ⟨hw', hok, herror⟩ := h w hw
  exact ⟨hw', hok, fun fault hfault => hE fault (herror fault hfault)⟩

theorem meets_pure {a : α} (h : Q a) : Meets I Q E (pure a : Action α) := by
  intro w hw
  refine ⟨hw, ?_, nofun⟩
  intro a' ha'
  cases ha'
  exact h

theorem meets_throw {fault : Fault} (h : E fault) : Meets I Q E (throw fault : Action α) := by
  intro w hw
  refine ⟨hw, nofun, ?_⟩
  intro fault' hfault'
  cases hfault'
  exact h

theorem meets_get : Meets I I E (get : Action World) := by
  intro w hw
  refine ⟨hw, ?_, nofun⟩
  intro w' hw'
  cases hw'
  exact hw

theorem meets_modify {f : World → World} (h : ∀ w, I w → I (f w)) :
    Meets I (fun _ => True) E (modify f : Action Unit) := by
  intro w hw
  exact ⟨h w hw, fun _ _ => trivial, nofun⟩

theorem meets_liftM {x : Except Fault α} (hok : ∀ a, x = .ok a → Q a)
    (herror : ∀ fault, x = .error fault → E fault) : Meets I Q E (liftM x : Action α) :=
  fun _ hw => ⟨hw, hok, herror⟩

theorem meets_bind {action : Action α} {next : α → Action β} (haction : Meets I Q E action)
    (hnext : ∀ a, Q a → Meets I R E (next a)) : Meets I R E (action >>= next) := by
  intro w hw
  rw [perform_bind]
  obtain ⟨hw', hok, herror⟩ := haction w hw
  generalize action.perform w = outcome at hw' hok herror ⊢
  rcases outcome with ⟨fault | a, w'⟩
  · refine ⟨hw', nofun, ?_⟩
    intro fault' hfault'
    cases hfault'
    exact herror fault rfl
  · exact hnext a (hok a rfl) w' hw'

theorem meets_tryCatch {action : Action α} {handle : Fault → Action α}
    (haction : Meets I Q E action) (hhandle : ∀ fault, E fault → Meets I Q F (handle fault)) :
    Meets I Q F (tryCatch action handle) := by
  intro w hw
  rw [perform_tryCatch]
  obtain ⟨hw', hok, herror⟩ := haction w hw
  generalize action.perform w = outcome at hw' hok herror ⊢
  rcases outcome with ⟨fault | a, w'⟩
  · exact hhandle fault (herror fault rfl) w' hw'
  · refine ⟨hw', ?_, nofun⟩
    intro a' ha'
    cases ha'
    exact hok a rfl

theorem meets_forM {items : List β} {action : β → Action Unit}
    (h : ∀ b, Meets I (fun _ => True) E (action b)) :
    Meets I (fun _ => True) E (items.forM action) := by
  rw [List.forM_eq_forM]
  induction items with
  | nil => exact meets_pure trivial
  | cons b items ih =>
      rw [List.forM_cons]
      exact meets_bind (h b) fun _ _ => ih

/-! ## Faults -/

/-- The action ends in a fault of the kind `E`. -/
def Faults (E : Fault → Prop) (action : Action α) (w : World) : Prop :=
  ∃ fault, (action.perform w).1 = .error fault ∧ E fault

variable {w : World}

@[simp] theorem not_faults_pure (a : α) : ¬ Faults E (pure a : Action α) w := by
  rintro ⟨fault, ⟨⟩, -⟩

@[simp] theorem not_faults_modify (f : World → World) :
    ¬ Faults E (modify f : Action Unit) w := by
  rintro ⟨fault, ⟨⟩, -⟩

@[simp] theorem not_faults_get : ¬ Faults E (get : Action World) w := by
  rintro ⟨fault, ⟨⟩, -⟩

@[simp] theorem faults_liftM {x : Except Fault α} :
    Faults E (liftM x : Action α) w ↔ ∃ fault, x = .error fault ∧ E fault :=
  Iff.rfl

/-- A sequence ends in a fault of its first part, or in one of the second part behind the first. -/
theorem faults_bind {action : Action α} {next : α → Action β} :
    Faults E (action >>= next) w ↔
      Faults E action w ∨ ∃ a w', action.perform w = (.ok a, w') ∧ Faults E (next a) w' := by
  rw [Faults, Faults, perform_bind]
  rcases action.perform w with ⟨fault | a, w'⟩
  · constructor
    · rintro ⟨fault', h, hE⟩
      cases h
      exact Or.inl ⟨fault, rfl, hE⟩
    · rintro (⟨fault', h, hE⟩ | ⟨a, w'', h, -⟩)
      · cases h
        exact ⟨fault, rfl, hE⟩
      · cases h
  · constructor
    · intro h
      exact Or.inr ⟨a, w', rfl, h⟩
    · rintro (⟨fault, h, -⟩ | ⟨a', w'', h, hnext⟩)
      · cases h
      · cases h
        exact hnext

theorem faults_bind_of_ok {action : Action α} {next : α → Action β} {a : α} {w' : World}
    (h : action.perform w = (.ok a, w')) :
    Faults E (action >>= next) w ↔ Faults E (next a) w' := by
  rw [Faults, Faults, perform_bind, h]

/-- What is handled ends in a fault if the handling does. -/
theorem faults_tryCatch {action : Action α} {handle : Fault → Action α} :
    Faults E (tryCatch action handle) w ↔
      ∃ fault w', action.perform w = (.error fault, w') ∧ Faults E (handle fault) w' := by
  rw [Faults, perform_tryCatch]
  rcases action.perform w with ⟨fault | a, w'⟩
  · constructor
    · intro h
      exact ⟨fault, w', rfl, h⟩
    · rintro ⟨fault', w'', h, hhandle⟩
      cases h
      exact hhandle
  · constructor
    · rintro ⟨fault, h, -⟩
      cases h
    · rintro ⟨fault, w'', h, -⟩
      cases h

theorem not_faults_forM {items : List β} {action : β → Action Unit}
    (h : ∀ b w, ¬ Faults E (action b) w) : ¬ Faults E (items.forM action) w := by
  rw [List.forM_eq_forM]
  induction items generalizing w with
  | nil => exact not_faults_pure ()
  | cons b items ih =>
      rw [List.forM_cons, faults_bind]
      rintro (hb | ⟨_, w', -, hitems⟩)
      · exact h b w hb
      · exact ih hitems

theorem Meets.exists_fault {action : Action α} (h : Meets I Q E action) (hw : I w)
    (hfaults : Faults F action w) : ∃ fault, E fault ∧ F fault := by
  obtain ⟨fault, hfault, hF⟩ := hfaults
  exact ⟨fault, (h w hw).2.2 fault hfault, hF⟩

end QuerySplice.Action
