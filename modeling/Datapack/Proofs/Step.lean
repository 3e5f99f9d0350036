import Datapack.Error

/-!
# Laws of steps

A `Step` ends in a result or in a refusal, and in a state of its own either
way. The laws here take steps apart, so that no later proof opens the monad.

**Sequences.** `bind_ok` splits a sequence that succeeds into its two steps.

**Invariants.** `Keeps I step` says that `step` ends in a state with `I`
whenever it starts in one, also when it is refused; `Keeps.bind` and
`Keeps.forM` carry this over whole runs.

**Parts.** `onPart_ok`, `onPart_error` and `after_onPart` reduce a step on a part of
the state to the part.

**Atomic steps.** `Atomic step`: a refusal leaves the state exactly as it was. This
is a matter of order: whatever can be refused comes before the first change. A step
that only reads (`Reads`) may stand before an atomic one (`Atomic.after_reads`), and
one that is never refused (`Total`) may stand after it (`Atomic.before_total`).

**Traversals.** `forM_refused` finds the step at which a run was refused, and
`mapM_steady` runs steps that leave the state alone. `mapM_cons_ok`,
`mapM_mem`, `mapM_append_ok`, `mapM_eq_map`, `mapM_eq_filterMap` and
`mapM_error_iff` are about results that touch no state at all.
-/
namespace Datapack.Step

variable {σ α β : Type}

/-! ## Sequences -/

theorem bind_eq (x : Step σ α) (f : α → Step σ β) (s : σ) :
    (x >>= f) s = match x s with
      | .ok a s' => f a s'
      | .error e s' => .error e s' := by
  change EStateM.bind x f s = _
  unfold EStateM.bind
  cases x s <;> rfl

theorem bind_ok {x : Step σ α} {f : α → Step σ β} {s s' : σ} {b : β}
    (h : (x >>= f) s = .ok b s') : ∃ a s₁, x s = .ok a s₁ ∧ f a s₁ = .ok b s' := by
  rw [bind_eq] at h
  cases hx : x s with
  | ok a s₁ => rw [hx] at h; exact ⟨a, s₁, rfl, h⟩
  | error e s₁ => rw [hx] at h; cases h

theorem bind_of_ok {x : Step σ α} {f : α → Step σ β} {s s₁ : σ} {a : α}
    (h : x s = .ok a s₁) : (x >>= f) s = f a s₁ := by
  rw [bind_eq, h]

theorem bind_of_error {x : Step σ α} {f : α → Step σ β} {s s₁ : σ} {e : Error}
    (h : x s = .error e s₁) : (x >>= f) s = .error e s₁ := by
  rw [bind_eq, h]

theorem get_bind (f : σ → Step σ β) (s : σ) : ((get : Step σ σ) >>= f) s = f s s := rfl

theorem ofExcept_bind (r : Except Error α) (f : α → Step σ β) (s : σ) :
    (ofExcept r >>= f) s = match r with
      | .ok a => f a s
      | .error e => .error e s := by
  cases r <;> rfl

theorem ofExcept_bind_eq (r : Except Error α) (f : α → Except Error β) :
    (ofExcept (r >>= f) : Step σ β) = ofExcept r >>= fun a => ofExcept (f a) := by
  cases r <;> rfl

theorem ofExcept_ok {r : Except Error α} {s s' : σ} {a : α} :
    ofExcept r s = .ok a s' ↔ r = .ok a ∧ s = s' := by
  cases r <;> simp [ofExcept]

theorem ofExcept_bind_ok {r : Except Error α} {f : α → Step σ β} {s s' : σ} {b : β}
    (h : (ofExcept r >>= f) s = .ok b s') : ∃ a, r = .ok a ∧ f a s = .ok b s' := by
  cases r with
  | ok a => exact ⟨a, rfl, h⟩
  | error e => cases h

theorem within_ok {op : Opcode} {x : Step σ α} {s s' : σ} {a : α} :
    within op x s = .ok a s' ↔ x s = .ok a s' := by
  unfold within
  cases x s <;> simp

theorem within_error {op : Opcode} {x : Step σ α} {s s' : σ} {e : Error}
    (h : within op x s = .error e s') : ∃ e', x s = .error e' s' ∧ e = e'.within op := by
  unfold within at h
  cases hx : x s with
  | ok a s₁ => rw [hx] at h; cases h
  | error e' s₁ => rw [hx] at h; cases h; exact ⟨e', rfl, rfl⟩

/-! ## Invariants -/

/-- The state that a step leaves behind, refused or not. -/
def after (step : Step σ α) (s : σ) : σ :=
  match step s with
  | .ok _ s' => s'
  | .error _ s' => s'

theorem after_of_ok {step : Step σ α} {s s' : σ} {a : α} (h : step s = .ok a s') :
    after step s = s' := by
  unfold after; rw [h]

theorem after_of_error {step : Step σ α} {s s' : σ} {e : Error} (h : step s = .error e s') :
    after step s = s' := by
  unfold after; rw [h]

theorem after_congr {x y : Step σ α} {s : σ} (h : x s = y s) : after x s = after y s := by
  unfold after; rw [h]

theorem after_bind_of_ok {x : Step σ α} {f : α → Step σ β} {s s₁ : σ} {a : α}
    (h : x s = .ok a s₁) : after (x >>= f) s = after (f a) s₁ := by
  unfold after; rw [bind_of_ok h]

theorem after_ofExcept (r : Except Error α) (s : σ) : after (ofExcept r) s = s := by
  cases r <;> rfl

theorem after_within (op : Opcode) (x : Step σ α) (s : σ) : after (within op x) s = after x s := by
  unfold after within
  cases x s <;> rfl

/-- The step is not refused. -/
def succeeds (step : Step σ α) (s : σ) : Bool :=
  match step s with
  | .ok _ _ => true
  | .error _ _ => false

theorem succeeds_of_ok {step : Step σ α} {s s' : σ} {a : α} (h : step s = .ok a s') :
    succeeds step s = true := by
  unfold succeeds; rw [h]

theorem succeeds_of_error {step : Step σ α} {s s' : σ} {e : Error} (h : step s = .error e s') :
    succeeds step s = false := by
  unfold succeeds; rw [h]

theorem succeeds_bind_of_ok {x : Step σ α} {f : α → Step σ β} {s s₁ : σ} {a : α}
    (h : x s = .ok a s₁) : succeeds (x >>= f) s = succeeds (f a) s₁ := by
  unfold succeeds; rw [bind_of_ok h]

theorem succeeds_ofExcept {r : Except Error α} {s : σ} :
    succeeds (ofExcept r) s = true ↔ ∃ a, r = .ok a := by
  cases r <;> simp [succeeds, ofExcept]

/-- Reading an answer off the state that a step leaves changes nothing more. -/
theorem after_returning {P : σ → Prop} {x : Step σ α} {s : σ} (h : P (after x s))
    (g : α → σ → β) : P (after (x >>= fun a => do return g a (← get)) s) := by
  unfold after at h ⊢
  cases hx : x s with
  | ok a s' => rw [hx] at h; rw [bind_of_ok hx]; exact h
  | error e s' => rw [hx] at h; rw [bind_of_error hx]; exact h

theorem succeeds_returning (x : Step σ α) (g : α → σ → β) (s : σ) :
    succeeds (x >>= fun a => do return g a (← get)) s = succeeds x s := by
  cases hx : x s with
  | ok a s' => rw [succeeds_bind_of_ok hx, succeeds_of_ok hx]; rfl
  | error e s' => rw [succeeds_of_error (bind_of_error hx), succeeds_of_error hx]

/-- The step ends with `I` whenever it starts with `I`. -/
def Keeps (I : σ → Prop) (step : Step σ α) : Prop := ∀ s, I s → I (after step s)

variable {I : σ → Prop}

theorem Keeps.of_ok {step : Step σ α} (hk : Keeps I step) {s s' : σ} {a : α}
    (h : step s = .ok a s') (hs : I s) : I s' :=
  after_of_ok h ▸ hk s hs

theorem Keeps.pure (a : α) : Keeps I (Pure.pure a : Step σ α) := fun _ h => h

theorem Keeps.bind {x : Step σ α} {f : α → Step σ β} (hx : Keeps I x)
    (hf : ∀ a, Keeps I (f a)) : Keeps I (x >>= f) := by
  intro s h
  have h₁ := hx s h
  cases hr : x s with
  | ok a s₁ =>
    rw [after_of_ok hr] at h₁
    rw [after_bind_of_ok hr]
    exact hf a s₁ h₁
  | error e s₁ =>
    rw [after_of_error hr] at h₁
    rw [after_of_error (bind_of_error hr)]
    exact h₁

theorem Keeps.forM {f : α → Step σ Unit} :
    ∀ (l : List α), (∀ a ∈ l, Keeps I (f a)) → Keeps I (l.forM f)
  | [], _ => Keeps.pure ()
  | a :: l, h =>
    Keeps.bind (h a List.mem_cons_self) fun _ =>
      Keeps.forM l fun b hb => h b (List.mem_cons_of_mem a hb)

/-! ## Steps on a part of the state -/

section

variable {τ : Type} {part : σ → τ} {put : τ → σ → σ} {step : Step τ α} {s s' : σ} {t : τ}

theorem onPart_of_ok {a : α} (h : step (part s) = .ok a t) :
    onPart part put step s = .ok a (put t s) := by
  unfold onPart; rw [h]

theorem onPart_of_error {e : Error} (h : step (part s) = .error e t) :
    onPart part put step s = .error e (put t s) := by
  unfold onPart; rw [h]

theorem onPart_ok {a : α} (h : onPart part put step s = .ok a s') :
    ∃ t, step (part s) = .ok a t ∧ s' = put t s := by
  unfold onPart at h
  cases hs : step (part s) with
  | ok b t => rw [hs] at h; cases h; exact ⟨t, rfl, rfl⟩
  | error e t => rw [hs] at h; cases h

theorem onPart_error {e : Error} (h : onPart part put step s = .error e s') :
    ∃ t, step (part s) = .error e t ∧ s' = put t s := by
  unfold onPart at h
  cases hs : step (part s) with
  | ok b t => rw [hs] at h; cases h
  | error e t => rw [hs] at h; cases h; exact ⟨t, rfl, rfl⟩

theorem succeeds_onPart (step : Step τ α) (s : σ) :
    succeeds (onPart part put step) s = succeeds step (part s) := by
  unfold succeeds onPart
  cases step (part s) <;> rfl

theorem after_onPart (step : Step τ α) (s : σ) :
    after (onPart part put step) s = put (after step (part s)) s := by
  unfold after onPart
  cases step (part s) <;> rfl

end

/-! ## Atomic steps -/

/-- The step leaves the state alone, refused or not. -/
def Reads (step : Step σ α) : Prop := ∀ s, after step s = s

/-- The step is never refused. -/
def Total (step : Step σ α) : Prop := ∀ s, succeeds step s = true

/-- A refusal leaves the state as it was. -/
def Atomic (step : Step σ α) : Prop := ∀ s e s', step s = .error e s' → s' = s

theorem Reads.ofExcept (r : Except Error α) : Reads (Step.ofExcept r : Step σ α) :=
  after_ofExcept r

theorem Reads.atomic {step : Step σ α} (h : Reads step) : Atomic step := by
  intro s e s' hs
  exact (after_of_error hs).symm.trans (h s)

theorem Total.atomic {step : Step σ α} (h : Total step) : Atomic step := by
  intro s e s' hs
  have hsucceeds := h s
  rw [succeeds_of_error hs] at hsucceeds
  cases hsucceeds

theorem Atomic.ofExcept (r : Except Error α) : Atomic (Step.ofExcept r : Step σ α) :=
  (Reads.ofExcept r).atomic

theorem Atomic.refuse (c : Cause) : Atomic (Step.refuse c : Step σ α) :=
  Reads.atomic fun _ => rfl

theorem Atomic.after_reads {x : Step σ α} {f : α → Step σ β} (hx : Reads x)
    (hf : ∀ a, Atomic (f a)) : Atomic (x >>= f) := by
  intro s e s' h
  have hstill := hx s
  cases hr : x s with
  | ok a s₁ =>
    rw [after_of_ok hr] at hstill
    rw [bind_of_ok hr] at h
    exact (hf a s₁ e s' h).trans hstill
  | error e₁ s₁ =>
    rw [bind_of_error hr] at h
    cases h
    exact hx.atomic s e s' hr

theorem Atomic.after_get {f : σ → Step σ β} (hf : ∀ s, Atomic (f s)) : Atomic (get >>= f) :=
  Atomic.after_reads (fun _ => rfl) hf

theorem Atomic.after_ofExcept {r : Except Error α} {f : α → Step σ β} (hf : ∀ a, Atomic (f a)) :
    Atomic (Step.ofExcept r >>= f) :=
  Atomic.after_reads (Reads.ofExcept r) hf

theorem Atomic.before_total {x : Step σ α} {f : α → Step σ β} (hx : Atomic x)
    (hf : ∀ a, Total (f a)) : Atomic (x >>= f) := by
  intro s e s' h
  cases hr : x s with
  | ok a s₁ =>
    rw [bind_of_ok hr] at h
    exact absurd (hf a s₁) (by rw [succeeds_of_error h]; exact Bool.false_ne_true)
  | error e₁ s₁ =>
    rw [bind_of_error hr] at h
    cases h
    exact hx s e s' hr

theorem Atomic.within {step : Step σ α} (h : Atomic step) (op : Opcode) :
    Atomic (Step.within op step) := by
  intro s e s' hs
  obtain ⟨e₁, he, -⟩ := within_error hs
  exact h s e₁ s' he

theorem Atomic.onPart {τ : Type} {part : σ → τ} {put : τ → σ → σ} {step : Step τ α}
    (h : Atomic step) (hput : ∀ s, put (part s) s = s) : Atomic (Step.onPart part put step) := by
  intro s e s' hs
  obtain ⟨t, ht, rfl⟩ := onPart_error hs
  rw [h _ _ _ ht, hput]

/-! ## Traversals -/

/-- A run that was refused got through its steps up to one that was. -/
theorem forM_refused {f : α → Step σ Unit} {e : Error} {s' : σ} :
    ∀ {l : List α} {s : σ}, l.forM f s = .error e s' → ∃ before a after s₁,
      l = before ++ a :: after ∧ before.forM f s = .ok () s₁ ∧ f a s₁ = .error e s'
  | [], _, h => by cases h
  | a :: l, s, h => by
    change (f a >>= fun _ => l.forM f) s = _ at h
    cases hr : f a s with
    | ok u s₁ =>
      rw [bind_of_ok hr] at h
      obtain ⟨before, b, after, s₂, rfl, hbefore, hb⟩ := forM_refused h
      refine ⟨a :: before, b, after, s₂, rfl, ?_, hb⟩
      change (f a >>= fun _ => before.forM f) s = _
      rw [bind_of_ok hr]
      exact hbefore
    | error e' s₁ =>
      rw [bind_of_error hr] at h
      cases h
      exact ⟨[], a, l, s, rfl, rfl, hr⟩

/-- A run that was refused was refused at one of its steps, in a state with `I`. -/
theorem forM_error {f : α → Step σ Unit} {e : Error} {s' : σ} (l : List α)
    (hk : ∀ a ∈ l, Keeps I (f a)) (s : σ) (hs : I s) (h : l.forM f s = .error e s') :
    ∃ a ∈ l, ∃ s₁, I s₁ ∧ f a s₁ = .error e s' := by
  obtain ⟨before, a, after, s₁, rfl, hbefore, ha⟩ := forM_refused h
  refine ⟨a, by simp, s₁, ?_, ha⟩
  exact (Keeps.forM before fun b hb => hk b (List.mem_append_left _ hb)).of_ok hbefore hs

/-- Steps that leave the state alone and yield what `g` says do so in a row. -/
theorem mapM_steady {f : α → Step σ β} {g : α → Option β} {s : σ} : ∀ {l : List α},
    (∀ a ∈ l, ∃ b, f a s = .ok b s ∧ g a = some b) → l.mapM f s = .ok (l.filterMap g) s
  | [], _ => rfl
  | a :: l, h => by
    obtain ⟨b, hf, hg⟩ := h a List.mem_cons_self
    have hl := mapM_steady fun x hx => h x (List.mem_cons_of_mem a hx)
    rw [List.mapM_cons, bind_of_ok hf, bind_of_ok hl, List.filterMap_cons, hg]
    rfl

/-- Steps that leave the state alone succeed in a row exactly when each of them does. -/
theorem succeeds_mapM {f : α → Step σ β} {s : σ} : ∀ {l : List α},
    (∀ a ∈ l, after (f a) s = s) →
      (succeeds (l.mapM f) s = true ↔ ∀ a ∈ l, succeeds (f a) s = true)
  | [], _ => by simp [succeeds, Pure.pure, EStateM.pure]
  | a :: l, h => by
    have ih := succeeds_mapM fun x hx => h x (List.mem_cons_of_mem a hx)
    have ha := h a List.mem_cons_self
    rw [List.mapM_cons, List.forall_mem_cons, ← ih]
    cases hf : f a s with
    | error e s₁ =>
      rw [succeeds_of_error (bind_of_error hf), succeeds_of_error hf]
      simp
    | ok b s₁ =>
      rw [after_of_ok hf] at ha
      subst ha
      rw [succeeds_of_ok hf, succeeds_bind_of_ok hf]
      cases hl : l.mapM f s₁ with
      | error e s₂ =>
        rw [succeeds_of_error (bind_of_error hl), succeeds_of_error hl]
        simp
      | ok bs s₂ =>
        rw [succeeds_bind_of_ok hl, succeeds_of_ok hl]
        exact iff_of_true rfl ⟨rfl, rfl⟩

/-- Every result of a traversal is the result of one of its steps. -/
theorem mapM_results {f : α → Step σ β} : ∀ {l : List α} {out : List β} {s s' : σ},
    l.mapM f s = .ok out s' → ∀ b ∈ out, ∃ a ∈ l, ∃ t t', f a t = .ok b t'
  | [], _, _, _, h, b, hb => by
    rw [List.mapM_nil] at h
    cases h
    cases hb
  | a :: l, _, s, _, h, b, hb => by
    rw [List.mapM_cons] at h
    obtain ⟨c, s₁, hc, h⟩ := bind_ok h
    obtain ⟨cs, s₂, hl, h⟩ := bind_ok h
    cases h
    rcases List.mem_cons.mp hb with rfl | hb
    · exact ⟨a, List.mem_cons_self, s, s₁, hc⟩
    · obtain ⟨x, hx, t, t', ht⟩ := mapM_results hl b hb
      exact ⟨x, List.mem_cons_of_mem a hx, t, t', ht⟩

/-! ## Traversals without a state -/

theorem except_bind_ok {x : Except Error α} {g : α → Except Error β} {b : β} :
    x >>= g = .ok b ↔ ∃ a, x = .ok a ∧ g a = .ok b := by
  cases x with
  | error e => simp [bind, Except.bind]
  | ok a => simp [bind, Except.bind]

theorem except_bind_error {x : Except Error α} {g : α → Except Error β} {e : Error}
    (h : x >>= g = .error e) : x = .error e ∨ ∃ a, x = .ok a ∧ g a = .error e := by
  cases x with
  | error e' => cases h; exact .inl rfl
  | ok a => exact .inr ⟨a, rfl, h⟩

theorem except_map_ok {x : Except Error α} {g : α → β} {b : β} :
    x.map g = .ok b ↔ ∃ a, x = .ok a ∧ g a = b := by
  cases x <;> simp [Except.map]

theorem mapError_ok {f : Error → Error} {x : Except Error α} {a : α} :
    Except.mapError f x = .ok a ↔ x = .ok a := by
  cases x with
  | ok b => exact Iff.rfl
  | error e => constructor <;> intro h <;> cases h

theorem mapError_error {f : Error → Error} {x : Except Error α} {e : Error}
    (h : Except.mapError f x = .error e) : ∃ e', x = .error e' ∧ e = f e' := by
  cases x with
  | ok b => cases h
  | error e' => cases h; exact ⟨e', rfl, rfl⟩

theorem except_ok_of_toOption {ε : Type} {x : Except ε α} {a : α} (h : x.toOption = some a) :
    x = .ok a := by
  cases x with
  | ok b => cases h; rfl
  | error e => cases h

/-- The error that stands in place of a result. -/
def error? {ε : Type} : Except ε α → Option ε
  | .ok _ => none
  | .error e => some e

theorem except_error_of_error? {ε : Type} {x : Except ε α} {e : ε} (h : error? x = some e) :
    x = .error e := by
  cases x with
  | ok b => cases h
  | error e' => cases h; rfl

variable {f : α → Except Error β}

theorem mapM_cons_ok {l : List α} {a : α} {b : β} {bs : List β} (ha : f a = .ok b)
    (hl : l.mapM f = .ok bs) : (a :: l).mapM f = .ok (b :: bs) := by
  rw [List.mapM_cons, ha, hl]
  rfl

/-- Everything that is traversed has its result among the results. -/
theorem mapM_mem : ∀ {l : List α} {out : List β}, l.mapM f = .ok out →
    ∀ a ∈ l, ∃ b ∈ out, f a = .ok b
  | [], _, _, _, ha => by cases ha
  | x :: l, out, h, a, ha => by
    rw [List.mapM_cons, except_bind_ok] at h
    obtain ⟨b, hx, h⟩ := h
    obtain ⟨bs, hl, h⟩ := except_bind_ok.mp h
    cases h
    rcases List.mem_cons.mp ha with rfl | ha
    · exact ⟨b, List.mem_cons_self, hx⟩
    · obtain ⟨c, hc, hfc⟩ := mapM_mem hl a ha
      exact ⟨c, List.mem_cons_of_mem b hc, hfc⟩

theorem mapM_ok_mem {l : List α} {out : List β} (h : l.mapM f = .ok out) (a : α) (ha : a ∈ l) :
    ∃ b, f a = .ok b := by
  obtain ⟨b, -, hb⟩ := mapM_mem h a ha
  exact ⟨b, hb⟩

/-- The results of a longer traversal begin with those of its beginning. -/
theorem mapM_append_ok {l l' : List α} {out : List β} (h : (l ++ l').mapM f = .ok out) :
    ∃ bs bs', l.mapM f = .ok bs ∧ l'.mapM f = .ok bs' ∧ out = bs ++ bs' := by
  rw [List.mapM_append, except_bind_ok] at h
  obtain ⟨bs, hl, h⟩ := h
  obtain ⟨bs', hl', h⟩ := except_bind_ok.mp h
  cases h
  exact ⟨bs, bs', hl, hl', rfl⟩

theorem mapM_eq_map {g : α → β} : ∀ {l : List α}, (∀ a ∈ l, f a = .ok (g a)) →
    l.mapM f = .ok (l.map g)
  | [], _ => rfl
  | x :: _, h =>
    mapM_cons_ok (h x List.mem_cons_self) (mapM_eq_map fun a ha => h a (List.mem_cons_of_mem x ha))

theorem mapM_eq_filterMap {g : α → Option β} : ∀ {l : List α},
    (∀ a ∈ l, ∃ b, f a = .ok b ∧ g a = some b) → l.mapM f = .ok (l.filterMap g)
  | [], _ => rfl
  | x :: l, h => by
    obtain ⟨b, hf, hg⟩ := h x List.mem_cons_self
    rw [List.filterMap_cons, hg]
    exact mapM_cons_ok hf (mapM_eq_filterMap fun a ha => h a (List.mem_cons_of_mem x ha))

theorem mapM_isOk {l : List α} (h : ∀ a ∈ l, ∃ b, f a = .ok b) : ∃ out, l.mapM f = .ok out := by
  refine ⟨_, mapM_eq_filterMap (g := fun a => (f a).toOption) fun a ha => ?_⟩
  obtain ⟨b, hb⟩ := h a ha
  exact ⟨b, hb, by rw [hb]; rfl⟩

/-- A traversal is refused at the first of its steps that is. -/
theorem mapM_error_iff {e : Error} : ∀ {l : List α}, l.mapM f = .error e ↔
    ∃ before a after, l = before ++ a :: after ∧ (∀ b ∈ before, ∃ c, f b = .ok c) ∧ f a = .error e
  | [] => by
    constructor
    · intro h; cases h
    · rintro ⟨before, a, after, h, -⟩
      simp at h
  | x :: l => by
    rw [List.mapM_cons]
    cases hx : f x with
    | error e' =>
      constructor
      · intro h
        cases h
        exact ⟨[], x, l, rfl, fun b hb => (by cases hb), hx⟩
      · rintro ⟨before, a, after, hl, hbefore, ha⟩
        cases before with
        | nil =>
          obtain ⟨rfl, -⟩ := List.cons.inj hl
          rw [hx] at ha
          cases ha
          rfl
        | cons b before =>
          obtain ⟨rfl, -⟩ := List.cons.inj hl
          obtain ⟨c, hc⟩ := hbefore x List.mem_cons_self
          rw [hx] at hc
          cases hc
    | ok b =>
      have hrest : (Except.ok b >>= fun b => l.mapM f >>= fun bs => Pure.pure (b :: bs)) =
          .error e ↔ l.mapM f = .error e := by
        cases l.mapM f with
        | ok bs => constructor <;> intro h <;> cases h
        | error e' => exact ⟨fun h => by cases h; rfl, fun h => by cases h; rfl⟩
      rw [hrest, mapM_error_iff]
      constructor
      · rintro ⟨before, a, after, rfl, hbefore, ha⟩
        refine ⟨x :: before, a, after, rfl, fun y hy => ?_, ha⟩
        rcases List.mem_cons.mp hy with rfl | hy
        · exact ⟨b, hx⟩
        · exact hbefore y hy
      · rintro ⟨before, a, after, hl, hbefore, ha⟩
        cases before with
        | nil =>
          obtain ⟨rfl, -⟩ := List.cons.inj hl
          rw [hx] at ha
          cases ha
        | cons y before =>
          obtain ⟨rfl, htail⟩ := List.cons.inj hl
          exact ⟨before, a, after, htail, fun z hz => hbefore z (List.mem_cons_of_mem x hz), ha⟩

theorem mapM_error_mem {e : Error} {l : List α} (h : l.mapM f = .error e) :
    ∃ a ∈ l, f a = .error e := by
  obtain ⟨before, a, after, rfl, -, ha⟩ := mapM_error_iff.mp h
  exact ⟨a, by simp, ha⟩

end Datapack.Step
