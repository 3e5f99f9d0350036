import Datapack.Proofs.Program.Agenda
import Datapack.Proofs.Program.Stages

/-!
# The statement that a refusal is attributed to

A compilation is the run through its agenda, and each visit finds the registry
as the visits before have left it.

**Faults.** `Visit.fault?` says what is wrong with a visit. It is read off the
program as it stands and off the visits before, among which only those matter
that made a function the handler of an advancement.

**Steps.** After some visits without a fault, the registry is as `Seen` says: what
there was is still there, and the handlers are those of the visits. The next visit
is refused exactly when it is at fault, with that cause and attributed to its
instruction (`Seen.answer`).

**Runs.** So a run through visits that are not refused meets no fault (`Seen.run`),
and a compilation is refused exactly for the first fault of the agenda
(`FirstFault`, `refusal_attributed`).
-/
namespace Datapack.Program

/-! ## Faults -/

/-- The advancement event that the visit makes a function handle. -/
def Visit.advancement? (function : FunctionId) (v : Visit) : Option Nat :=
  if v.pass = .preapply then v.insn.advancementOf? function else none

def missingFunction? (p : Program) (id : FunctionId) : Option Cause :=
  match p.registry.functions[id]? with
  | none => some (.notFound .function (numbered id))
  | some _ => none

def missingEvent? (p : Program) (id : Nat) : Option Cause :=
  match p.registry.events[id]? with
  | none => some (.notFound .event (numbered id))
  | some _ => none

/-- Why a function cannot be called by name. -/
def unaddressable? (p : Program) (op : Opcode) (id : FunctionId) : Option Cause :=
  match p.registry.functions[id]? with
  | none => some (.notFound .function (numbered id))
  | some f => if f.isInline then some (.inlineHandler op f.name) else none

/-- Why an event takes no condition. -/
def unconditional? (p : Program) (id : Nat) : Option Cause :=
  match p.registry.events[id]? with
  | none => some (.notFound .event (numbered id))
  | some (.tag name) => some (.wrongEventKind .addEventCondition name .advancement .tag)
  | some (.advancement ..) => none

/-- Why a function cannot handle an advancement, after some visits. -/
def engaged? (p : Program) (before : List Visit) (id : FunctionId) (event : Nat) : Option Cause :=
  match p.registry.functions[id]? with
  | none => some (.notFound .function (numbered id))
  | some f =>
    match before.findSome? (·.advancement? id) with
    | none => none
    | some known => if known = event then none else some (.misplaced (.secondAdvancement f.name))

/-- What is wrong with a visit, after those before it. -/
def Visit.fault? (p : Program) (before : List Visit) (v : Visit) : Option Cause :=
  match v.pass, v.insn with
  | .declare, .eventHandler handler _ => p.missingFunction? handler
  | .declare, .setupFn function => p.missingFunction? function
  | .preapply, .addEventCondition event _ _ => p.unconditional? event.id
  | .preapply, .eventHandler handler ⟨event, .advancement⟩ => p.engaged? before handler event
  | .postapply, .eventHandler handler event =>
    (p.unaddressable? .eventHandler handler).or (p.missingEvent? event.id)
  | .postapply, .setupFn function => p.unaddressable? .setupFn function
  | .emission, .fireEvent event => p.missingEvent? event.id
  | .emission, .revokeEventAdv handler => p.missingFunction? handler
  | _, _ => none

/-- The visit is at fault, and none before it is. -/
structure FirstFault (p : Program) (before : List Visit) (v : Visit) (after : List Visit)
    (cause : Cause) : Prop where
  split : p.agenda = before ++ v :: after
  clear : ∀ l u, l ++ [u] <+: before → u.fault? p l = none
  fault : v.fault? p before = some cause

/-! ## What has been seen -/

/-- What the passes leave of an event. -/
def eventView (e : Event) : String × EventKind := (e.name, e.kind)

/-- What the passes look at in a function. -/
def functionView (f : Function) : String × Bool × Option Nat := (f.name, f.isInline, f.advancement)

/-- The registry after some visits without a fault. -/
structure Seen (p : Program) (before : List Visit) (r : Registry) : Prop where
  events : r.events.map eventView = p.registry.events.map eventView
  functions : ∀ id : Nat, (r.functions.map functionView)[id]? =
    p.registry.functions[id]?.map fun f =>
      (f.name, f.isInline, before.findSome? (·.advancement? id))

namespace Seen

variable {p : Program} {before : List Visit} {v : Visit} {r : Registry}

theorem start (hp : p.Open) : Seen p [] p.registry := by
  refine ⟨rfl, fun id => ?_⟩
  rw [List.getElem?_map]
  cases hf : p.registry.functions[id]? with
  | none => rfl
  | some f =>
    have hidle := (hp.fresh.idle f (List.mem_of_getElem? hf)).2
    simp [functionView, hidle]

theorem enter (h : Seen p before r) (stage : Stage) : Seen p before { r with stage } :=
  ⟨h.events, h.functions⟩

/-- A visit that gives no function an advancement adds nothing to what has been seen. -/
theorem more (h : Seen p before r) (hv : ∀ id, v.advancement? id = none) :
    Seen p (before ++ [v]) r := by
  refine ⟨h.events, fun id => ?_⟩
  rw [h.functions id, List.findSome?_append]
  simp [hv]

theorem setFunction (h : Seen p before r) {id : FunctionId} {g g' : Function}
    (hg : r.functions[id]? = some g) (hview : functionView g' = functionView g) :
    Seen p before { r with functions := r.functions.set id g' } := by
  refine ⟨h.events, fun i => ?_⟩
  rw [Registry.map_set_same hg hview]
  exact h.functions i

theorem setEvent (h : Seen p before r) {id : Nat} {e e' : Event} (he : r.events[id]? = some e)
    (hview : eventView e' = eventView e) :
    Seen p before { r with events := r.events.set id e' } :=
  ⟨(Registry.map_set_same he hview).trans h.events, h.functions⟩

theorem function_none (h : Seen p before r) {id : FunctionId}
    (hf : p.registry.functions[id]? = none) : r.functions[id]? = none := by
  have hid := h.functions id
  rw [hf, List.getElem?_map, Option.map_none, Option.map_eq_none_iff] at hid
  exact hid

theorem function_some (h : Seen p before r) {id : FunctionId} {f : Function}
    (hf : p.registry.functions[id]? = some f) :
    ∃ g, r.functions[id]? = some g ∧ g.name = f.name ∧ g.isInline = f.isInline ∧
      g.advancement = before.findSome? (·.advancement? id) := by
  have hid := h.functions id
  rw [hf, List.getElem?_map, Option.map_some, Option.map_eq_some_iff] at hid
  obtain ⟨g, hg, hview⟩ := hid
  simp only [functionView, Prod.mk.injEq] at hview
  exact ⟨g, hg, hview⟩

theorem event_none (h : Seen p before r) {id : Nat} (he : p.registry.events[id]? = none) :
    r.events[id]? = none := by
  have hid := congrArg (·[id]?) h.events
  simp only [List.getElem?_map, he, Option.map_none, Option.map_eq_none_iff] at hid
  exact hid

theorem event_some (h : Seen p before r) {id : Nat} {e : Event}
    (he : p.registry.events[id]? = some e) :
    ∃ e', r.events[id]? = some e' ∧ e'.name = e.name ∧ e'.kind = e.kind := by
  have hid := congrArg (·[id]?) h.events
  simp only [List.getElem?_map, he, Option.map_some, Option.map_eq_some_iff, eventView,
    Prod.mk.injEq] at hid
  exact hid

end Seen

/-! ## Checks of the last passes -/

/-- A result is refused exactly when there is a cause, and with that cause. -/
inductive Checks {α : Type} : Except Error α → Option Cause → Prop where
  | refused (c : Cause) : Checks (.error c.error) (some c)
  | passed (a : α) : Checks (.ok a) none

namespace Checks

variable {α β : Type} {x : Except Error α} {c c' : Option Cause}

theorem bind {f : α → Except Error β} (hx : Checks x c) (hf : ∀ a, Checks (f a) c') :
    Checks (x >>= f) (c.or c') := by
  cases hx with
  | refused c => exact .refused c
  | passed a => exact hf a

theorem returning (hx : Checks x c) (g : α → β) : Checks (do return g (← x)) c := by
  cases hx with
  | refused c => exact .refused c
  | passed a => exact .passed (g a)

end Checks

namespace Seen

variable {p : Program} {before : List Visit} {r : Registry} (h : Seen p before r)
include h

theorem checks_function (id : FunctionId) : Checks (r.function id) (p.missingFunction? id) := by
  unfold Registry.function missingFunction?
  cases hf : p.registry.functions[id]? with
  | none => rw [h.function_none hf]; exact .refused _
  | some f =>
    obtain ⟨g, hg, -⟩ := h.function_some hf
    rw [hg]
    exact .passed g

theorem checks_event (event : EventHandle) :
    Checks (r.event event) (p.missingEvent? event.id) := by
  unfold Registry.event Registry.eventAt missingEvent?
  cases he : p.registry.events[event.id]? with
  | none => rw [h.event_none he]; exact .refused _
  | some e =>
    obtain ⟨e', he', -⟩ := h.event_some he
    rw [he']
    exact .passed e'

theorem checks_addressable (op : Opcode) (id : FunctionId) :
    Checks (r.addressable op id) (p.unaddressable? op id) := by
  unfold Registry.addressable Registry.function unaddressable?
  cases hf : p.registry.functions[id]? with
  | none => rw [h.function_none hf]; exact .refused _
  | some f =>
    obtain ⟨g, hg, hname, hinline, -⟩ := h.function_some hf
    rw [hg]
    change Checks (if g.isInline then _ else _)
      (if f.isInline then some (.inlineHandler op f.name) else none)
    rw [← hname, ← hinline]
    cases g.isInline with
    | true => exact .refused _
    | false => exact .passed g

end Seen

/-! ## Answers -/

/-- How a visit ends: it is refused when it is at fault, and seen when it is not. -/
inductive Answer (p : Program) (before : List Visit) (v : Visit) :
    EStateM.Result Error Registry Unit → Prop where
  | seen {r : Registry} (clear : v.fault? p before = none) (seen : Seen p (before ++ [v]) r) :
    Answer p before v (.ok () r)
  | refused {cause : Cause} {r : Registry} (fault : v.fault? p before = some cause) :
    Answer p before v (.error ⟨cause, some v.insn.opcode⟩ r)

namespace Seen

variable {p : Program} {before : List Visit} {r : Registry} (h : Seen p before r)
include h

theorem answer_markUsed (hs : r.stage = .declare) {insn : Instruction} {id : FunctionId}
    (hfault : Visit.fault? p before ⟨.declare, insn⟩ = p.missingFunction? id) :
    Answer p before ⟨.declare, insn⟩ (Step.within insn.opcode (Registry.markUsed id) r) := by
  unfold Step.within
  unfold missingFunction? at hfault
  rw [Registry.markUsed_eq, if_pos hs]
  cases hf : p.registry.functions[id]? with
  | none =>
    rw [hf] at hfault
    rw [h.function_none hf]
    exact .refused hfault
  | some f =>
    rw [hf] at hfault
    obtain ⟨g, hg, -⟩ := h.function_some hf
    have hused : functionView { g with isUsed := true } = functionView g := rfl
    rw [hg]
    exact .seen hfault ((h.setFunction hg hused).more fun _ => rfl)

theorem answer_declare (hs : r.stage = .declare) {insn : Instruction}
    (hk : insn.kind = .preamble) : Answer p before ⟨.declare, insn⟩ (insn.declare r) := by
  cases insn with
  | addEventCondition event path value => exact .seen rfl (h.more fun _ => rfl)
  | eventHandler handler event => exact h.answer_markUsed hs rfl
  | setupFn function => exact h.answer_markUsed hs rfl
  | _ => cases hk

theorem answer_condition (hs : r.stage = .apply) (event : EventHandle) (path value : String) :
    Answer p before ⟨.preapply, .addEventCondition event path value⟩
      ((Instruction.addEventCondition event path value).preapply r) := by
  have hfault : Visit.fault? p before ⟨.preapply, .addEventCondition event path value⟩ =
      p.unconditional? event.id := rfl
  unfold unconditional? at hfault
  change Answer p before _
    (Step.within .addEventCondition (Registry.addCondition event (.ofText path value)) r)
  unfold Step.within
  rw [Registry.addCondition_eq, if_pos hs]
  cases he : p.registry.events[event.id]? with
  | none =>
    rw [he] at hfault
    rw [h.event_none he]
    exact .refused hfault
  | some e =>
    rw [he] at hfault
    obtain ⟨e', he', hname, hkind⟩ := h.event_some he
    rw [he']
    -- The event is of the kind that it was declared with, whatever conditions it has by now.
    cases e with
    | tag name =>
      cases e' with
      | tag name' => cases hname; exact .refused hfault
      | advancement name' conditions => cases hkind
    | advancement name conditions =>
      cases e' with
      | tag name' => cases hkind
      | advancement name' conditions' =>
        have hview : eventView (.advancement name' (conditions' ++ [.ofText path value])) =
            eventView (.advancement name' conditions') := rfl
        exact .seen hfault ((h.setEvent he' hview).more fun _ => rfl)

/-- A function that handles an advancement from now on. -/
theorem engage {handler : FunctionId} {event : EventHandle} {g : Function}
    (hk : event.kind = .advancement) (hg : r.functions[handler]? = some g)
    (hfree : g.advancement = none) :
    Seen p (before ++ [⟨.preapply, .eventHandler handler event⟩])
      { r with functions := r.functions.set handler { g with advancement := some event.id } } := by
  refine ⟨h.events, fun id => ?_⟩
  have hid := h.functions id
  rw [List.getElem?_map] at hid ⊢
  rw [List.getElem?_set, List.findSome?_append]
  by_cases he : handler = id
  · subst he
    have hlt := (List.getElem?_eq_some_iff.mp hg).1
    rw [if_pos rfl, if_pos hlt]
    rw [hg] at hid
    cases hf : p.registry.functions[handler]? with
    | none => rw [hf] at hid; cases hid
    | some f =>
      rw [hf] at hid
      simp only [Option.map_some, functionView, hfree, Option.some.injEq, Prod.mk.injEq] at hid ⊢
      refine ⟨hid.1, hid.2.1, ?_⟩
      rw [← hid.2.2]
      simp [Visit.advancement?, Instruction.advancementOf?, hk]
  · rw [if_neg he, hid]
    simp [Visit.advancement?, Instruction.advancementOf?, he]

/-- A function that handles the advancement already. -/
theorem reengage {handler : FunctionId} {event : EventHandle} {known : Nat}
    (hknown : before.findSome? (·.advancement? handler) = some known) :
    Seen p (before ++ [⟨.preapply, .eventHandler handler event⟩]) r := by
  refine ⟨h.events, fun id => ?_⟩
  rw [h.functions id, List.findSome?_append]
  by_cases he : handler = id
  · subst he
    rw [hknown]
    rfl
  · simp [Visit.advancement?, Instruction.advancementOf?, he]

theorem answer_handler (hs : r.stage = .apply) (handler : FunctionId) (event : EventHandle) :
    Answer p before ⟨.preapply, .eventHandler handler event⟩
      ((Instruction.eventHandler handler event).preapply r) := by
  obtain ⟨event, kind⟩ := event
  cases kind with
  | tag =>
    refine .seen rfl (h.more fun id => ?_)
    simp [Visit.advancement?, Instruction.advancementOf?]
  | advancement =>
    have hfault : Visit.fault? p before ⟨.preapply, .eventHandler handler ⟨event, .advancement⟩⟩ =
        p.engaged? before handler event := rfl
    unfold engaged? at hfault
    change Answer p before _
      (Step.within .eventHandler (Registry.addRevoke handler ⟨event, .advancement⟩) r)
    unfold Step.within
    rw [Registry.addRevoke_eq, if_pos hs]
    cases hf : p.registry.functions[handler]? with
    | none =>
      rw [hf] at hfault
      rw [h.function_none hf]
      exact .refused hfault
    | some f =>
      rw [hf] at hfault
      obtain ⟨g, hg, hname, -, hadvancement⟩ := h.function_some hf
      rw [hg]
      simp only [hadvancement]
      cases hknown : before.findSome? (·.advancement? handler) with
      | none =>
        rw [hknown] at hfault hadvancement
        exact .seen hfault (h.engage rfl hg hadvancement)
      | some known =>
        rw [hknown] at hfault
        simp only at hfault ⊢
        by_cases he : known = event
        · rw [if_pos he] at hfault ⊢
          exact .seen hfault (h.reengage hknown)
        · rw [if_neg he] at hfault ⊢
          rw [hname]
          exact .refused hfault

theorem answer_preapply (hs : r.stage = .apply) {insn : Instruction}
    (hk : insn.kind = .preamble) : Answer p before ⟨.preapply, insn⟩ (insn.preapply r) := by
  cases insn with
  | addEventCondition event path value => exact h.answer_condition hs event path value
  | eventHandler handler event => exact h.answer_handler hs handler event
  | setupFn function => exact .seen rfl (h.more fun _ => rfl)
  | _ => cases hk

/-- A visit that only reads the registry. -/
theorem answer_reading {α : Type} {x : Except Error α} {v : Visit} (hpass : v.pass ≠ .preapply)
    (hx : Checks x (v.fault? p before)) :
    Answer p before v
      (Step.ofExcept ((x.mapError (Error.within v.insn.opcode)).map fun _ => ()) r) := by
  have hnone : ∀ id, v.advancement? id = none := fun _ => if_neg hpass
  cases hc : v.fault? p before with
  | none =>
    rw [hc] at hx
    cases hx with
    | passed a => exact .seen hc (h.more hnone)
  | some c =>
    rw [hc] at hx
    cases hx with
    | refused c => exact .refused hc

theorem answer_postapply {insn : Instruction} (hk : insn.kind = .preamble) :
    Answer p before ⟨.postapply, insn⟩
      (Step.ofExcept ((insn.postapply r).map fun _ => ()) r) := by
  refine h.answer_reading (by simp) ?_
  cases insn with
  | addEventCondition event path value => exact .passed []
  | eventHandler handler event =>
    exact (h.checks_addressable .eventHandler handler).bind fun f =>
      (h.checks_event event).returning fun e => [Registration.handler f.name e f.needsRevoke]
  | setupFn function =>
    exact (h.checks_addressable .setupFn function).returning fun f => [Registration.setup f.name]
  | _ => cases hk

theorem answer_command {insn : Instruction} (hk : insn.kind = .emitter) :
    Answer p before ⟨.emission, insn⟩ (Step.ofExcept ((insn.command r).map fun _ => ()) r) := by
  refine h.answer_reading (by simp) ?_
  cases insn with
  | fireEvent event => exact (h.checks_event event).returning fun e => Command.callTag ⟨e.name⟩
  | revokeEventAdv handler =>
    exact (h.checks_function handler).returning fun f =>
      Command.revoke (.plain .sender) (Advancement.nameFor f.name)
  | _ => cases hk

/-- A visit that fits is refused exactly when it is at fault. -/
theorem answer {v : Visit} (hv : v.Fits) : Answer p before v (v.perform r) := by
  obtain ⟨pass, insn⟩ := v
  have h := h.enter pass.stage
  cases pass with
  | construct => exact hv.elim
  | declare => exact h.answer_declare rfl hv
  | preapply => exact h.answer_preapply rfl hv
  | postapply =>
    change Answer p before _ (readOff Instruction.postapply insn { r with stage := .closed })
    rw [readOff_eq]
    exact h.answer_postapply hv
  | emission =>
    change Answer p before _ (readOff Instruction.command insn { r with stage := .closed })
    rw [readOff_eq]
    exact h.answer_command hv

end Seen

/-! ## Runs through the agenda -/

/-- Visits that were not refused are not at fault, and they have been seen. -/
theorem Seen.run {p : Program} : ∀ {l before : List Visit} {r r' : Registry},
    Seen p before r → (∀ v ∈ l, v.Fits) → l.forM Visit.perform r = .ok () r' →
      Seen p (before ++ l) r' ∧ ∀ l' u, l' ++ [u] <+: l → u.fault? p (before ++ l') = none
  | [], before, r, r', hseen, _, h => by
    cases h
    refine ⟨by simpa using hseen, fun l' u hl => ?_⟩
    simp at hl
  | v :: l, before, r, r', hseen, hfits, h => by
    obtain ⟨u, r₁, hv, h⟩ := Step.bind_ok h
    have hanswer := hseen.answer (hfits v List.mem_cons_self)
    rw [hv] at hanswer
    cases hanswer with
    | seen hnone hnext =>
      have happend (l' : List Visit) : before ++ v :: l' = before ++ [v] ++ l' := by simp
      obtain ⟨hrest, hclear⟩ := hnext.run (fun u hu => hfits u (List.mem_cons_of_mem v hu)) h
      refine ⟨happend l ▸ hrest, fun l' u hl => ?_⟩
      cases l' with
      | nil =>
        obtain ⟨rfl, -⟩ := List.cons_prefix_cons.mp hl
        simpa using hnone
      | cons w l' =>
        obtain ⟨rfl, htail⟩ := List.cons_prefix_cons.mp hl
        rw [happend]
        exact hclear l' u htail

/-! ## The first fault -/

/-- An agenda has one first fault at most. -/
theorem FirstFault.unique {p : Program} {before before' after after' : List Visit} {v v' : Visit}
    {cause cause' : Cause} (h : FirstFault p before v after cause)
    (h' : FirstFault p before' v' after' cause') : v = v' ∧ cause = cause' := by
  -- The shorter of the two beginnings would hold the other fault.
  have shorter {l₁ l₂ l₁' l₂' : List Visit} {u u' : Visit} {c c' : Cause}
      (hu : FirstFault p l₁ u l₁' c) (hu' : FirstFault p l₂ u' l₂' c')
      (hlt : l₁.length < l₂.length) : False := by
    have hpre : l₁ ++ [u] <+: p.agenda := ⟨l₁', by rw [hu.split]; simp⟩
    have hpre' : l₂ <+: p.agenda := ⟨u' :: l₂', hu'.split.symm⟩
    have hlength : (l₁ ++ [u]).length ≤ l₂.length := by
      rw [List.length_append]
      exact hlt
    have hnone := hu'.clear l₁ u (List.prefix_of_prefix_length_le hpre hpre' hlength)
    rw [hu.fault] at hnone
    cases hnone
  rcases Nat.lt_trichotomy before.length before'.length with hlt | heq | hlt
  · exact (shorter h h' hlt).elim
  · obtain ⟨rfl, htail⟩ := List.append_inj (h.split.symm.trans h'.split) heq
    cases htail
    have hcause := h.fault.symm.trans h'.fault
    cases hcause
    exact ⟨rfl, rfl⟩
  · exact (shorter h' h hlt).elim

/-- A run that is refused is refused at the first fault. -/
theorem Open.firstFault {p : Program} (hp : p.Open) {e : Error} {r' : Registry}
    (h : p.agenda.forM Visit.perform p.registry = .error e r') :
    ∃ before v after cause r, FirstFault p before v after cause ∧
      before.forM Visit.perform p.registry = .ok () r ∧ v.perform r = .error e r' ∧
      e = ⟨cause, some v.insn.opcode⟩ := by
  obtain ⟨before, v, after, r, hsplit, hbefore, hv⟩ := Step.forM_refused h
  have hfits := hp.fits
  rw [hsplit] at hfits
  obtain ⟨hseen, hclear⟩ := (Seen.start hp).run
    (fun u hu => hfits u (List.mem_append_left _ hu)) hbefore
  have hanswer := hseen.answer (hfits v (by simp))
  rw [hv] at hanswer
  cases hanswer with
  | refused hfault => exact ⟨before, v, after, _, r, ⟨hsplit, hclear, hfault⟩, hbefore, hv, rfl⟩

theorem Open.refused_of_firstFault {p : Program} (hp : p.Open) {before after : List Visit}
    {v : Visit} {cause : Cause} (h : FirstFault p before v after cause) :
    ∃ r, p.agenda.forM Visit.perform p.registry = .error ⟨cause, some v.insn.opcode⟩ r := by
  cases ha : p.agenda.forM Visit.perform p.registry with
  | ok u r =>
    have hclear := ((Seen.start hp).run hp.fits ha).2 before v
      ⟨after, by rw [h.split]; simp⟩
    rw [List.nil_append, h.fault] at hclear
    cases hclear
  | error e r =>
    obtain ⟨before', v', after', cause', r₁, h', -, -, rfl⟩ := hp.firstFault ha
    obtain ⟨rfl, rfl⟩ := h.unique h'
    exact ⟨r, rfl⟩

/-- **Attribution.** Take any calls without a compilation, successful or refused, on a program and
on its registry.

If the program is then refused by the compiler, the visits of the agenda up to one are carried out,
and the error is the refusal of that one: it is the first at fault, the error has the cause of its
fault and is attributed to its instruction, which the catalogue knows by its name and has help for.
The error is not that of a statement or a stage out of step. Conversely, a program with a first
fault is refused for it. -/
theorem refusal_attributed (calls : List Call) (hc : .compile ∉ calls) (p : Program)
    (hp : (History.of calls).program = p) :
    (∀ e p', compile p = .error e p' →
      ∃ before v after cause r, FirstFault p before v after cause ∧
        before.forM Visit.perform p.registry = .ok () r ∧ v.perform r = .error e p'.registry ∧
        e = ⟨cause, some v.insn.opcode⟩ ∧ e.isUntimely = false ∧
        Opcode.ofName? v.insn.name = some v.insn.opcode ∧
        e.usage? = some v.insn.opcode.help ∧
        ∃ t, Track.compile (Tracked.of calls) = .error (.refused e) t ∧ t.program = p') ∧
    ∀ before v after cause, FirstFault p before v after cause →
      ∃ p', compile p = .error ⟨cause, some v.insn.opcode⟩ p' := by
  subst hp
  have hopen := History.isOpen calls (History.stage_of calls hc)
  refine ⟨fun e p' h => ?_, fun before v after cause hfirst => ?_⟩
  · obtain ⟨r', hrun, rfl⟩ := hopen.compile_error_iff.mp h
    obtain ⟨before, v, after, cause, r, hfirst, hbefore, hv, rfl⟩ := hopen.firstFault hrun
    refine ⟨before, v, after, cause, r, hfirst, hbefore, hv, rfl, hopen.compile_timely h,
      Opcode.ofName?_name _, rfl, ?_⟩
    obtain ⟨hunvisited, hpace⟩ := Tracked.pace calls
    have hfollows := compile_follows hunvisited
    unfold Follows at hfollows
    rw [hpace, h] at hfollows
    exact hfollows
  · obtain ⟨r, hrun⟩ := hopen.refused_of_firstFault hfirst
    exact ⟨_, hopen.compile_error_iff.mpr ⟨r, hrun, rfl⟩⟩

/-- A setup statement names an inline function, which is found out in the third pass. The handler
behind it gives its function a second advancement, which is found out in the second, and so it is
blamed. -/
theorem refusal_attributed_secondHandler :
    ∃ calls : List Call, .compile ∉ calls ∧
      ∃ e p' before v after cause, compile (History.of calls).program = .error e p' ∧
        FirstFault (History.of calls).program before v after cause ∧
        e = ⟨cause, some v.insn.opcode⟩ ∧
        e = ⟨.misplaced (.secondAdvancement "f"), some .eventHandler⟩ := by
  let calls : List Call := [
    .edit (.addFunction "f" false false),
    .edit (.addFunction "g" true false),
    .edit (.define "a" (.advEvent "a")),
    .edit (.define "b" (.advEvent "b")),
    .edit (.pushTop (.eventHandler 0 ⟨0, .advancement⟩)),
    .edit (.pushTop (.setupFn 1)),
    .edit (.pushTop (.eventHandler 0 ⟨1, .advancement⟩))]
  have hopen : .compile ∉ calls := by simp [calls]
  obtain ⟨p', hrefused⟩ : ∃ p', compile (History.of calls).program =
      .error ⟨.misplaced (.secondAdvancement "f"), some .eventHandler⟩ p' := ⟨_, rfl⟩
  obtain ⟨before, v, after, cause, r, hfirst, -, -, he, -⟩ :=
    (refusal_attributed calls hopen _ rfl).1 _ _ hrefused
  exact ⟨calls, hopen, _, p', before, v, after, cause, hrefused, hfirst, he, rfl⟩

end Datapack.Program
