import Datapack.Proofs.Layout.Places
import Datapack.Proofs.Scope.Growth

/-!
# The order of resolution

Commands that are resolved in one scope share its tables. Each may hand out
names that another one uses, and one that is refused halfway leaves behind the
names of the parts before. The texts do not show any of this.

**Covering.** `Covers s s'` compares two scopes that were put to different use:
`s'` knows what `s` knows, and whatever else it knows of names local to
entities, `s` would declare in the same way when asked. Nothing is said about
the order of the tables.

**Steady steps.** A step is `Steady` when it moves up in this order, keeps the
order between two scopes that it is taken in, and gives an answer of the lower
scope in the upper one too. Composed steps are steady (`Composed.steady`).

**Runs.** Any calls that declare no variables lead upwards if the scope is not
sealed on the way, and two such runs have a common upper scope: the one that the
second leads to from the end of the first (`covers_run`, `run_mono`).
-/
namespace Datapack

namespace Scope

open Step (after Keeps)

/-! ## Covering -/

structure Covers (s s' : Scope) : Prop extends Knows s s' where
  isSealed : s'.isSealed = true → s.isSealed = true
  locals : ∀ {name entry}, s'.vars.get? (localName name) = some entry →
    s.vars.get? (localName name) = some entry ∨ entry = .fixed (localName name)

namespace Covers

variable {s s' s'' : Scope}

theorem refl (s : Scope) : Covers s s := ⟨Knows.refl s, id, .inl⟩

theorem trans (h : Covers s s') (h' : Covers s' s'') : Covers s s'' where
  toKnows := h.toKnows.trans h'.toKnows
  isSealed hs := h.isSealed (h'.isSealed hs)
  locals he := (h'.locals he).elim h.locals .inr

theorem isOpen (h : Covers s s') (ho : s.isSealed = false) : s'.isSealed = false := by
  cases hs : s'.isSealed with
  | false => rfl
  | true => rw [h.isSealed hs] at ho; cases ho

end Covers

/-! ## Steady steps -/

structure Steady {α : Type} (step : Step Scope α) : Prop where
  covers : ∀ s, Covers s (after step s)
  mono : ∀ {s s'}, Covers s s' → Covers (after step s) (after step s')
  answers : ∀ {s s' s₁ a}, Covers s s' → step s = .ok a s₁ → ∃ s₁', step s' = .ok a s₁'

namespace Steady

variable {α β : Type}

theorem pure (a : α) : Steady (Pure.pure a : Step Scope α) where
  covers := .refl
  mono h := h
  answers {_ s' _ _} _ hs := by
    cases hs
    exact ⟨s', rfl⟩

theorem read {f : Scope → Except Error α}
    (hf : ∀ {s s' a}, f s = .ok a → Knows s s' → f s' = .ok a) :
    Steady (do Step.ofExcept (f (← get))) := by
  have hafter : ∀ s, after (do Step.ofExcept (f (← get)) : Step Scope α) s = s :=
    fun s => Step.after_ofExcept (f s) s
  refine ⟨fun s => ?_, fun {s s'} h => ?_, fun {s s' s₁ a} h hs => ?_⟩
  · rw [hafter]
    exact .refl s
  · rw [hafter, hafter]
    exact h
  · obtain ⟨ha, _⟩ := Step.ofExcept_ok.mp hs
    exact ⟨s', Step.ofExcept_ok.mpr ⟨hf ha h.toKnows, rfl⟩⟩

theorem bind {x : Step Scope α} {f : α → Step Scope β} (hx : Steady x)
    (hf : ∀ a, Steady (f a)) : Steady (x >>= f) where
  covers s :=
    Keeps.bind (I := Covers s) (fun t ht => ht.trans (hx.covers t))
      (fun a t ht => ht.trans ((hf a).covers t)) s (.refl s)
  mono {s s'} h := by
    have hmono := hx.mono h
    cases hr : x s with
    | ok a s₁ =>
      obtain ⟨s₁', hr'⟩ := hx.answers h hr
      rw [Step.after_of_ok hr, Step.after_of_ok hr'] at hmono
      rw [Step.after_bind_of_ok hr, Step.after_bind_of_ok hr']
      exact (hf a).mono hmono
    | error e s₁ =>
      -- The upper scope may go on where the lower one stopped: it only moves up from there.
      rw [Step.after_of_error hr] at hmono
      rw [Step.after_of_error (Step.bind_of_error hr)]
      cases hr' : x s' with
      | ok a s₁' =>
        rw [Step.after_of_ok hr'] at hmono
        rw [Step.after_bind_of_ok hr']
        exact hmono.trans ((hf a).covers s₁')
      | error e' s₁' =>
        rw [Step.after_of_error hr'] at hmono
        rw [Step.after_of_error (Step.bind_of_error hr')]
        exact hmono
  answers h hs := by
    obtain ⟨a, s₁, hr, hs⟩ := Step.bind_ok hs
    obtain ⟨s₁', hr'⟩ := hx.answers h hr
    have hmono := hx.mono h
    rw [Step.after_of_ok hr, Step.after_of_ok hr'] at hmono
    rw [Step.bind_of_ok hr']
    exact (hf a).answers hmono hs

end Steady

/-! ## Handing names out -/

namespace Allocates

variable {step : Step Scope String} {known : Scope → Bool} {answer : Scope → Except Error String}
  {what : Allocation} {extend : Scope → Scope} (h : Allocates step known answer what extend)
include h

theorem answered {s : Scope} (hs : known s = true ∨ s.isSealed = false) :
    known (after step s) = true ∧
      step s = Step.ofExcept (answer (after step s)) (after step s) := by
  cases hk : known s with
  | true =>
    rw [h.after_known hk]
    exact ⟨hk, h.eq_known hk⟩
  | false =>
    have ho := hs.resolve_left (by rw [hk]; exact Bool.false_ne_true)
    rw [h.after_new hk ho]
    exact ⟨h.known_extend s, h.eq_new hk ho⟩

/-- To hand a name out is steady when it leads to the least scope above that knows the name. -/
theorem steady
    (up : ∀ {s}, known s = false → Covers s (extend s))
    (least : ∀ {s t}, known s = false → Covers s t → known t = true → Covers (extend s) t) :
    Steady step := by
  have hcovers : ∀ s, Covers s (after step s) := by
    intro s
    cases hk : known s with
    | true => rw [h.after_known hk]; exact .refl s
    | false =>
      cases ho : s.isSealed with
      | true => rw [Step.after_of_error (h.eq_sealed hk ho)]; exact .refl s
      | false => rw [h.after_new hk ho]; exact up hk
  have hmono : ∀ {s s'}, Covers s s' → Covers (after step s) (after step s') := by
    intro s s' hc
    cases hk : known s with
    | true =>
      rw [h.after_known hk, h.after_known (h.keeps hc.toKnows hk)]
      exact hc
    | false =>
      cases ho : s.isSealed with
      | true =>
        rw [Step.after_of_error (h.eq_sealed hk ho)]
        exact hc.trans (hcovers s')
      | false =>
        rw [h.after_new hk ho]
        exact least hk (hc.trans (hcovers s')) (h.answered (.inr (hc.isOpen ho))).1
  refine ⟨hcovers, hmono, fun {s s' s₁ n} hc hs => ?_⟩
  have hgiven : known s' = true ∨ s'.isSealed = false := by
    cases hk : known s with
    | true => exact .inl (h.keeps hc.toKnows hk)
    | false =>
      cases ho : s.isSealed with
      | true => rw [h.eq_sealed hk ho] at hs; cases hs
      | false => exact .inr (hc.isOpen ho)
  have hup := hmono hc
  rw [Step.after_of_ok hs] at hup
  rw [(h.answered hgiven).2, h.answers hup.toKnows (h.of_ok hs).2]
  exact ⟨_, rfl⟩

end Allocates

theorem memory_steady (origin : UInt64) : Steady (memory origin) := by
  refine (memory_allocates origin).steady ?_ ?_
  · intro s _
    exact ⟨{ Knows.refl s with cells := List.subset_append_left _ _ }, id, .inl⟩
  · intro s t _ hc ht
    have hcell : origin ∈ t.cells := List.contains_iff_mem.mp ht
    exact { hc with cells := List.append_subset.mpr ⟨hc.cells, by simpa using hcell⟩ }

theorem tag_steady (symbol : String) : Steady (tag symbol) := by
  refine (tag_allocates symbol).steady ?_ ?_
  · intro s _
    exact ⟨{ Knows.refl s with tags := List.subset_append_left _ _ }, id, .inl⟩
  · intro s t _ hc ht
    have htag : symbol ∈ t.tags := List.contains_iff_mem.mp ht
    exact { hc with tags := List.append_subset.mpr ⟨hc.tags, by simpa using htag⟩ }

theorem covers_declareLocal {name : String} {s : Scope} (h : isLocal name s = false) :
    Covers s (declareLocal name s) := by
  refine ⟨{ Knows.refl s with get? := fun {key entry} he => ?_ }, id, fun {key entry} he => ?_⟩
  · rw [get?_declareLocal_eq, if_neg]
    · exact he
    · rintro rfl
      rw [get?_of_isLocal h] at he
      cases he
  · rw [get?_declareLocal_eq] at he
    split at he
    · rename_i hkey
      exact .inr (hkey ▸ (Option.some.inj he).symm)
    · exact .inl he

theorem entityLocal_steady (name : String) : Steady (entityLocal name) := by
  refine (entityLocal_allocates name).steady covers_declareLocal ?_
  intro s t hk hc ht
  -- The name is declared in `t` and not in `s`, hence with its own name.
  have hfixed : t.vars.get? (localName name) = some (.fixed (localName name)) := by
    unfold isLocal at hk ht
    rw [Bool.or_eq_false_iff] at hk
    rw [hc.foreign, hk.1, Bool.false_or] at ht
    obtain ⟨entry, he⟩ := Option.isSome_iff_exists.mp ht
    rcases hc.locals he with hs | rfl
    · rw [hs] at hk
      cases hk.2
    · exact he
  refine ⟨{ hc.toKnows with get? := fun {key entry} he => ?_ }, hc.isSealed,
    fun {key entry} he => ?_⟩
  · rw [get?_declareLocal_eq] at he
    split at he
    · rename_i hkey
      rw [← hkey, ← he]
      exact hfixed
    · exact hc.get? he
  · exact (hc.locals he).imp (covers_declareLocal hk).get? id

theorem Composed.steady {α : Type} {step : Step Scope α} (h : Composed step) : Steady step := by
  induction h with
  | pure a => exact .pure a
  | bind _ _ ihx ihf => exact .bind ihx ihf
  | read hf => exact .read hf
  | memory origin => exact memory_steady origin
  | tag symbol => exact tag_steady symbol
  | entityLocal name => exact entityLocal_steady name

/-! ## Runs -/

namespace Call

/-- The call declares a variable by name. -/
def declares : Call → Bool
  | .addVariable .. => true
  | _ => false

def seals : Call → Bool
  | .setSealed => true
  | _ => false

theorem steady {c : Call} (hd : c.declares = false) (hs : c.seals = false) :
    Steady c.perform := by
  cases hq : c.isQuestion with
  | true => exact (Call.composed hq).steady
  | false =>
    cases c with
    | addFunctions names =>
      refine ⟨fun s => ?_, fun {s s'} h => ?_, fun {s s' s₁ a} _ ha => ?_⟩
      · exact ⟨(grows_addFunctions s names).knows, id, .inl⟩
      · refine { h with functions := fun name hn => ?_ }
        exact mem_addFunctions.mpr ((mem_addFunctions.mp hn).imp id fun hn => h.functions hn)
      · cases ha
        exact ⟨s'.addFunctions names, rfl⟩
    | addVariable name entry => cases hd
    | setSealed => cases hs
    | _ => cases hq

end Call

theorem run_covers : ∀ (s : Scope) {calls : List Call},
    (∀ c ∈ calls, c.declares = false ∧ c.seals = false) → Covers s (run s calls) := by
  intro s calls
  induction calls generalizing s with
  | nil => exact fun _ => .refl s
  | cons c calls ih =>
    intro h
    obtain ⟨hc, hcalls⟩ := List.forall_mem_cons.mp h
    exact ((Call.steady hc.1 hc.2).covers s).trans (ih _ hcalls)

/-- A run stays below the same run from an upper scope, in which sealing is left out. -/
theorem run_mono {s s' : Scope} {calls : List Call} (h : Covers s s')
    (hcalls : ∀ c ∈ calls, c.declares = false) :
    Covers (run s calls) (run s' (calls.filter (!·.seals))) := by
  induction calls generalizing s s' with
  | nil => exact h
  | cons c calls ih =>
    obtain ⟨hc, hrest⟩ := List.forall_mem_cons.mp hcalls
    cases hs : c.seals with
    | false =>
      rw [List.filter_cons_of_pos (by rw [hs]; rfl)]
      exact ih ((Call.steady hc hs).mono h) hrest
    | true =>
      rw [List.filter_cons_of_neg (by rw [hs]; exact Bool.false_ne_true)]
      cases c with
      | setSealed => exact ih { h with isSealed := fun _ => rfl } hrest
      | _ => cases hs

theorem replacesNone_of_declares : ∀ (s : Scope) {calls : List Call},
    (∀ c ∈ calls, c.declares = false) → replacesNone s calls = true
  | _, [], _ => rfl
  | s, c :: calls, h => by
    obtain ⟨hc, hcalls⟩ := List.forall_mem_cons.mp h
    have hr : c.replaces s = false := by
      cases c with
      | addVariable name entry => cases hc
      | _ => rfl
    rw [replacesNone, hr, replacesNone_of_declares _ hcalls]
    rfl

end Scope

namespace Command

open Scope (run Call)

/-- **Stability.** Once a command resolves in a scope, it resolves to the same text after any calls
that neither declare variables nor seal the scope; and after its own resolution it resolves to this
text for good, sealed or not, without a change to the scope. So its text does not depend on what is
resolved before it: wherever two runs from one scope let it resolve, they agree on its text. -/
theorem resolve_stable (c : Command) (s : Scope) :
    (∀ text s₁, c.resolve s = .ok text s₁ →
      (∀ calls : List Call, (∀ k ∈ calls, k.declares = false ∧ k.seals = false) →
        ∃ s', c.resolve (run s calls) = .ok text s') ∧
      ∀ calls : List Call, (∀ k ∈ calls, k.declares = false) →
        c.resolve (run s₁ calls) = .ok text (run s₁ calls)) ∧
    ∀ calls calls' : List Call, (∀ k ∈ calls, k.declares = false) →
      (∀ k ∈ calls', k.declares = false) → ∀ text text' s₁ s₁',
        c.resolve (run s calls) = .ok text s₁ → c.resolve (run s calls') = .ok text' s₁' →
          text = text' := by
  have hsteady := c.resolve_composed.steady
  refine ⟨fun text s₁ hs => ⟨fun calls hcalls => ?_, fun calls hcalls => ?_⟩, ?_⟩
  · exact hsteady.answers (Scope.run_covers s hcalls) hs
  · exact c.resolve_lasting.again hs (Scope.run_grows (Scope.replacesNone_of_declares s₁ hcalls))
  · intro calls calls' hcalls hcalls' text text' s₁ s₁' hs hs'
    -- Both runs lie below the second taken from the end of the first.
    have hfree : ∀ {l : List Call}, (∀ k ∈ l, k.declares = false) →
        ∀ k ∈ l.filter (!·.seals), k.declares = false ∧ k.seals = false := by
      intro l hl k hk
      obtain ⟨hk, hopen⟩ := List.mem_filter.mp hk
      exact ⟨hl k hk, by simpa using hopen⟩
    have hfirst := (Scope.run_mono (.refl s) hcalls).trans
      (Scope.run_covers _ (hfree hcalls'))
    have hsecond := Scope.run_mono (Scope.run_covers s (hfree hcalls)) hcalls'
    obtain ⟨u, hu⟩ := hsteady.answers hfirst hs
    obtain ⟨u', hu'⟩ := hsteady.answers hsecond hs'
    rw [hu] at hu'
    cases hu'
    rfl

/-- Between two resolutions, a command is refused halfway, and a local name and a tag are handed out
that the command would have been the first to ask for. -/
theorem resolve_stable_halfway :
    ∃ (c : Command) (s s₁ : Scope) (calls : List Call),
      c.resolve s = .ok "say ns_el_hp ns_tag_on" s₁ ∧ (run s calls).tags ≠ s.tags ∧
      (∃ s', c.resolve (run s calls) = .ok "say ns_el_hp ns_tag_on" s') ∧
      c.resolve (run s₁ (.setSealed :: calls)) =
        .ok "say ns_el_hp ns_tag_on" (run s₁ (.setSealed :: calls)) := by
  let c : Command :=
    .templated [.text "say ", .arg "entity_local" "hp", .text " ", .arg "tag" "on"]
  let s : Scope := {
    ns := "ns"
    entityTag := "ns_etag"
    home := .site }
  let calls : List Call :=
    [.entityLocal "hp", .resolve (.templated [.arg "tag" "on", .arg "func" "missing"]), .memory 4]
  have htext : String.join ["say ", trim (s.qualify (Scope.localName "hp")), " ", s.tagName "on"] =
      "say ns_el_hp ns_tag_on" := by decide +kernel
  obtain ⟨s₁, hs⟩ : ∃ s₁, c.resolve s = .ok "say ns_el_hp ns_tag_on" s₁ := by
    rw [← htext]
    exact ⟨_, rfl⟩
  obtain ⟨hbefore, hafter⟩ := (resolve_stable c s).1 _ s₁ hs
  exact ⟨c, s, s₁, calls, hs, by decide +kernel, hbefore calls (by decide),
    hafter (.setSealed :: calls) (by decide)⟩

end Command

end Datapack
