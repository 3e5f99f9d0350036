import Datapack.Proofs.Registry
import Datapack.Program.Compile

/-!
# The passes of a compilation in closed form

The declare pass and the apply pass walk a list of statements and change the
registry at every one of them. Here each pass is replaced by one condition
on its statements and one registry that is computed from all of them at once:
a function is used when some statement names it, an event ends with the
conditions of all statements that mention it, and a function handles the
advancement of the first statement that gives it one.

**Results.**
* `declareAll_ok_iff`: the declare pass over `l` succeeds exactly when every
  statement of `l` is `Declarable`, and then yields `declared l`.
* `preapplyAll_ok_iff`: the apply pass over `l` succeeds exactly when every
  statement is `Applicable`, which is where two advancements of one handler
  are refused, and then yields `applied l`.
* `compile_ok_iff`: what a compilation that succeeds has checked, and the
  registry that it reads its output off.
-/
namespace Datapack

namespace Instruction

/-- The function that a handler or setup statement names. -/
def target? : Instruction → Option FunctionId
  | .eventHandler handler _ => some handler
  | .setupFn function => some function
  | _ => none

/-- The condition that a statement attaches to an event. -/
def conditionOn? (id : Nat) : Instruction → Option Condition
  | .addEventCondition event path value =>
    if event.id = id then some (Condition.ofText path value) else none
  | _ => none

/-- The advancement event that a statement gives a function to handle. -/
def advancementOf? (function : FunctionId) : Instruction → Option Nat
  | .eventHandler handler event =>
    if handler = function ∧ event.kind = .advancement then some event.id else none
  | _ => none

end Instruction

/-- The event with further conditions, which only an advancement takes. -/
def Event.attach (cs : List Condition) : Event → Event
  | .advancement name conditions => .advancement name (conditions ++ cs)
  | .tag name => .tag name

theorem Event.attach_nil (e : Event) : e.attach [] = e := by
  cases e <;> simp [attach]

theorem Event.attach_append (cs cs' : List Condition) (e : Event) :
    e.attach (cs ++ cs') = (e.attach cs).attach cs' := by
  cases e <;> simp [attach]

theorem Event.attach_eq_advancement {cs : List Condition} {e : Event} :
    (∃ name conditions, e.attach cs = .advancement name conditions) ↔
      ∃ name conditions, e = .advancement name conditions := by
  cases e <;> simp [attach]

theorem Event.name_attach (cs : List Condition) (e : Event) : (e.attach cs).name = e.name := by
  cases e <;> rfl

theorem Event.kind_attach (cs : List Condition) (e : Event) : (e.attach cs).kind = e.kind := by
  cases e <;> rfl

namespace Registry

/-! ## Declaring -/

/-- The registry in which all functions that `l` names are used. -/
def declared (l : List Instruction) (r : Registry) : Registry :=
  { r with
    functions := r.functions.mapIdx fun id f =>
      { f with isUsed := f.isUsed || l.any (·.target? = some id) } }

theorem declared_append (l l' : List Instruction) (r : Registry) :
    r.declared (l ++ l') = (r.declared l).declared l' := by
  simp [declared, Function.comp_def, Bool.or_assoc]

theorem declared_of_none {l : List Instruction} (h : ∀ insn ∈ l, insn.target? = none)
    (r : Registry) : r.declared l = r := by
  have hl (id : FunctionId) : l.any (fun insn => insn.target? = some id) = false := by
    rw [List.any_eq_false]
    intro insn hi
    simp [h insn hi]
  have : r.functions.mapIdx (fun id f =>
      { f with isUsed := f.isUsed || l.any (·.target? = some id) }) = r.functions := by
    rw [List.mapIdx_eq_iff]
    intro i
    simp [hl]
  simp only [declared, this]

theorem declared_of_target {insn : Instruction} {id : FunctionId} {f : Function} {r : Registry}
    (ht : insn.target? = some id) (hf : r.functions[id]? = some f) :
    r.declared [insn] =
      { r with functions := r.functions.set id { f with isUsed := true } } := by
  have : r.functions.mapIdx (fun i f =>
      { f with isUsed := f.isUsed || [insn].any (·.target? = some i) }) =
      r.functions.set id { f with isUsed := true } := by
    rw [List.mapIdx_eq_iff]
    intro i
    rw [List.getElem?_set]
    by_cases hi : id = i
    · subst hi
      have hlt := (List.getElem?_eq_some_iff.mp hf).1
      rw [if_pos rfl, if_pos hlt, hf]
      simp [ht]
    · rw [if_neg hi]
      simp [ht, hi]
  simp only [declared, this]

/-- What the declare pass checks of a statement. -/
def Declarable (r : Registry) (insn : Instruction) : Prop :=
  insn.kind = .preamble ∧ ∀ id, insn.target? = some id → id < r.functions.length

theorem declare_target {insn : Instruction} {id : FunctionId} (ht : insn.target? = some id) :
    insn.declare = Step.within insn.opcode (markUsed id) := by
  cases insn <;> cases ht <;> rfl

theorem declare_ok_iff {r r' : Registry} {insn : Instruction} (hs : r.stage = .declare) :
    insn.declare r = .ok () r' ↔ r.Declarable insn ∧ r' = r.declared [insn] := by
  cases ht : insn.target? with
  | some id =>
    have hk : insn.kind = .preamble := by cases insn <;> cases ht <;> rfl
    rw [declare_target ht, Step.within_ok, markUsed_eq, if_pos hs]
    cases hf : r.functions[id]? with
    | none =>
      have hlt : ¬ id < r.functions.length := Nat.not_lt.mpr (List.getElem?_eq_none_iff.mp hf)
      simp [Declarable, ht, hlt]
    | some f =>
      have hlt := (List.getElem?_eq_some_iff.mp hf).1
      rw [declared_of_target ht hf]
      simp [Declarable, ht, hk, hlt, eq_comm]
  | none =>
    rw [declared_of_none (by simpa using ht)]
    cases insn with
    | eventHandler handler event => cases ht
    | setupFn function => cases ht
    | addEventCondition event path value =>
      have hd : (Instruction.addEventCondition event path value).declare r = .ok () r := rfl
      rw [hd]
      simp [Declarable, Instruction.kind, Instruction.opcode, Opcode.kind, Opcode.signature,
        Instruction.target?, eq_comm]
    | _ =>
      constructor
      · intro h; cases h
      · rintro ⟨⟨hk, -⟩, -⟩; cases hk

theorem declareAll_ok_iff {r' : Registry} : ∀ {l : List Instruction} {r : Registry},
    r.stage = .declare → (l.forM Instruction.declare r = .ok () r' ↔
      (∀ insn ∈ l, r.Declarable insn) ∧ r' = r.declared l)
  | [], r, _ => by
    rw [declared_of_none (by simp)]
    constructor
    · intro h; cases h; simp
    · rintro ⟨-, rfl⟩; rfl
  | insn :: l, r, hs => by
    have hlen : (r.declared [insn]).functions.length = r.functions.length := by simp [declared]
    have htail : ∀ x, (r.declared [insn]).Declarable x ↔ r.Declarable x := by
      intro x; simp only [Declarable, hlen]
    have happ : r.declared (insn :: l) = (r.declared [insn]).declared l :=
      declared_append [insn] l r
    have hs₁ : (r.declared [insn]).stage = .declare := hs
    change (insn.declare >>= fun _ => l.forM Instruction.declare) r = _ ↔ _
    constructor
    · intro h
      obtain ⟨u, r₁, h₁, h₂⟩ := Step.bind_ok h
      obtain ⟨hd, rfl⟩ := (declare_ok_iff hs).mp h₁
      obtain ⟨hl, rfl⟩ := (declareAll_ok_iff hs₁).mp h₂
      refine ⟨?_, happ.symm⟩
      intro x hx
      rcases List.mem_cons.mp hx with rfl | hx
      · exact hd
      · exact (htail x).mp (hl x hx)
    · rintro ⟨hl, rfl⟩
      rw [Step.bind_of_ok ((declare_ok_iff hs).mpr ⟨hl insn List.mem_cons_self, rfl⟩), happ]
      exact (declareAll_ok_iff hs₁).mpr
        ⟨fun x hx => (htail x).mpr (hl x (List.mem_cons_of_mem insn hx)), rfl⟩

/-! ## Applying -/

/-- The registry in which the conditions of `l` are attached to their events, and every function
that `l` makes the handler of an advancement has one. -/
def applied (l : List Instruction) (r : Registry) : Registry :=
  { r with
    events := r.events.mapIdx fun id e => e.attach (l.filterMap (·.conditionOn? id))
    functions := r.functions.mapIdx fun id f =>
      { f with advancement := f.advancement.or (l.findSome? (·.advancementOf? id)) } }

theorem events_applied (l : List Instruction) (r : Registry) (id : Nat) :
    (r.applied l).events[id]? =
      r.events[id]?.map (Event.attach (l.filterMap (·.conditionOn? id))) := by
  simp [applied]

theorem functions_applied (l : List Instruction) (r : Registry) (id : FunctionId) :
    (r.applied l).functions[id]? = r.functions[id]?.map fun f =>
      { f with advancement := f.advancement.or (l.findSome? (·.advancementOf? id)) } := by
  simp [applied]

/-- Two registries are equal when they agree at every number. -/
theorem eq_of_getElem? {r r' : Registry} (hs : r.stage = r'.stage)
    (he : ∀ id : Nat, r.events[id]? = r'.events[id]?)
    (hf : ∀ id : Nat, r.functions[id]? = r'.functions[id]?) : r = r' := by
  cases r; cases r'
  simp only [Registry.mk.injEq]
  exact ⟨hs, List.ext_getElem? he, List.ext_getElem? hf⟩

theorem applied_append (l l' : List Instruction) (r : Registry) :
    r.applied (l ++ l') = (r.applied l).applied l' := by
  refine eq_of_getElem? rfl (fun id => ?_) (fun id => ?_)
  · simp only [events_applied, Option.map_map, List.filterMap_append]
    congr 1
    funext e
    exact Event.attach_append _ _ e
  · simp only [functions_applied, Option.map_map, List.findSome?_append]
    congr 1
    funext f
    simp only [Function.comp_apply, Option.or_assoc]

theorem applied_of_none {l : List Instruction} {r : Registry}
    (hc : ∀ insn ∈ l, ∀ id, insn.conditionOn? id = none)
    (ha : ∀ insn ∈ l, ∀ id, insn.advancementOf? id = none) : r.applied l = r := by
  refine eq_of_getElem? rfl (fun id => ?_) (fun id => ?_)
  · have hl : l.filterMap (·.conditionOn? id) = [] := by
      rw [List.filterMap_eq_nil_iff]; exact fun insn hi => hc insn hi id
    have hn : Event.attach [] = fun e => e := funext Event.attach_nil
    rw [events_applied, hl, hn, Option.map_id']
  · have hl : l.findSome? (·.advancementOf? id) = none := by
      rw [List.findSome?_eq_none_iff]; exact fun insn hi => ha insn hi id
    rw [functions_applied, hl]
    simp

/-- What the apply pass over `l` checks of a statement of `l`. -/
structure Applicable (r : Registry) (l : List Instruction) (insn : Instruction) : Prop where
  kind : insn.kind = .preamble
  condition : ∀ id c, insn.conditionOn? id = some c →
    ∃ name cs, r.events[id]? = some (.advancement name cs)
  /-- The statement agrees with what all of `l` makes of its function. -/
  advancement : ∀ id event, insn.advancementOf? id = some event →
    ∃ f, r.functions[id]? = some f ∧
      f.advancement.or (l.findSome? (·.advancementOf? id)) = some event

theorem applied_condition {r : Registry} {event : EventHandle} {name : String}
    {cs : List Condition} (known : r.events[event.id]? = some (.advancement name cs))
    (path value : String) :
    r.applied [.addEventCondition event path value] =
      { r with
        events := r.events.set event.id
          (.advancement name (cs ++ [Condition.ofText path value])) } := by
  have hlt := (List.getElem?_eq_some_iff.mp known).1
  refine eq_of_getElem? rfl (fun id => ?_) (fun id => ?_)
  · rw [events_applied, List.getElem?_set]
    by_cases hi : event.id = id
    · subst hi
      rw [if_pos rfl, if_pos hlt, known]
      simp [Instruction.conditionOn?, Event.attach]
    · have hn : Event.attach [] = fun e => e := funext Event.attach_nil
      rw [if_neg hi]
      simp [Instruction.conditionOn?, hi, hn]
  · rw [functions_applied]
    simp [Instruction.advancementOf?]

/-- One handler statement for an advancement event settles the advancement of its function. -/
theorem applied_handler {r : Registry} {handler : FunctionId} {event : EventHandle} {f : Function}
    (hk : event.kind = .advancement) (known : r.functions[handler]? = some f) :
    r.applied [.eventHandler handler event] =
      { r with
        functions := r.functions.set handler
          { f with advancement := f.advancement.or (some event.id) } } := by
  have hlt := (List.getElem?_eq_some_iff.mp known).1
  refine eq_of_getElem? rfl (fun id => ?_) (fun id => ?_)
  · have hn : Event.attach [] = fun e => e := funext Event.attach_nil
    rw [events_applied]
    simp [Instruction.conditionOn?, hn]
  · rw [functions_applied, List.getElem?_set]
    by_cases hi : handler = id
    · subst hi
      rw [if_pos rfl, if_pos hlt, known]
      simp [Instruction.advancementOf?, hk]
    · rw [if_neg hi]
      simp [Instruction.advancementOf?, hi]

theorem applicable_handler_iff {r : Registry} {handler : FunctionId} {event : EventHandle}
    (hk : event.kind = .advancement) :
    r.Applicable [.eventHandler handler event] (.eventHandler handler event) ↔
      ∃ f, r.functions[handler]? = some f ∧ f.advancement.or (some event.id) = some event.id := by
  constructor
  · intro h
    simpa [Instruction.advancementOf?, hk] using h.advancement handler event.id
  · rintro ⟨f, hf, ha⟩
    refine ⟨rfl, fun id c hc => (by cases hc), fun id ev hid => ?_⟩
    simp only [Instruction.advancementOf?, hk, and_true, Option.ite_none_right_eq_some,
      Option.some.injEq] at hid
    obtain ⟨rfl, rfl⟩ := hid
    exact ⟨f, hf, by simpa [Instruction.advancementOf?, hk] using ha⟩

theorem preapply_handler_ok_iff {r r' : Registry} {handler : FunctionId} {event : EventHandle}
    (hs : r.stage = .apply) :
    (Instruction.eventHandler handler event).preapply r = .ok () r' ↔
      r.Applicable [.eventHandler handler event] (.eventHandler handler event) ∧
        r' = r.applied [.eventHandler handler event] := by
  cases hk : event.kind with
  | tag =>
    have hn : ∀ id, (Instruction.eventHandler handler event).advancementOf? id = none := by
      intro id; simp [Instruction.advancementOf?, hk]
    have hr : (Instruction.eventHandler handler event).preapply r = .ok () r := by
      unfold Instruction.preapply
      rw [Step.within_ok]
      simp only [hk]
      rfl
    rw [hr, applied_of_none (by simp [Instruction.conditionOn?]) (by simpa using hn)]
    constructor
    · intro h
      cases h
      refine ⟨⟨rfl, fun id c hc => (by cases hc), fun id ev hid => ?_⟩, rfl⟩
      rw [hn] at hid; cases hid
    · rintro ⟨-, rfl⟩; rfl
  | advancement =>
    have hp : (Instruction.eventHandler handler event).preapply r = .ok () r' ↔
        addRevoke handler event r = .ok () r' := by
      unfold Instruction.preapply
      rw [Step.within_ok]
      simp only [hk]
    rw [hp, applicable_handler_iff hk, addRevoke_eq, if_pos hs, hk]
    cases hf : r.functions[handler]? with
    | none => simp
    | some f =>
      rw [applied_handler hk hf]
      cases ha : f.advancement with
      | none => simp [ha, eq_comm]
      | some known =>
        have hset : r.functions.set handler { f with advancement := some known } = r.functions := by
          obtain ⟨hlt, he⟩ := List.getElem?_eq_some_iff.mp hf
          have hf' : { f with advancement := some known } = f := by rw [← ha]
          rw [hf', ← he, List.set_getElem_self]
        simp only [Option.some.injEq, exists_eq_left', ha, Option.some_or, hset]
        by_cases hkn : known = event.id
        · simp only [hkn, if_true, EStateM.Result.ok.injEq, true_and]
          exact eq_comm
        · simp [hkn]

theorem preapply_ok_iff {r r' : Registry} {insn : Instruction} (hs : r.stage = .apply) :
    insn.preapply r = .ok () r' ↔ r.Applicable [insn] insn ∧ r' = r.applied [insn] := by
  cases insn with
  | eventHandler handler event => exact preapply_handler_ok_iff hs
  | setupFn function =>
    have hr : (Instruction.setupFn function).preapply r = .ok () r := rfl
    rw [hr, applied_of_none (by simp [Instruction.conditionOn?])
      (by simp [Instruction.advancementOf?])]
    constructor
    · intro h
      cases h
      exact ⟨⟨rfl, fun id c hc => (by cases hc), fun id ev hid => by cases hid⟩, rfl⟩
    · rintro ⟨-, rfl⟩; rfl
  | addEventCondition event path value =>
    have hp : (Instruction.addEventCondition event path value).preapply r = .ok () r' ↔
        addCondition event (Condition.ofText path value) r = .ok () r' := Step.within_ok
    have hc : (Instruction.addEventCondition event path value).conditionOn? event.id =
        some (Condition.ofText path value) := if_pos rfl
    rw [hp, addCondition_eq, if_pos hs]
    cases he : r.events[event.id]? with
    | none =>
      constructor
      · intro h; cases h
      · rintro ⟨h, -⟩
        obtain ⟨name, cs, hn⟩ := h.condition _ _ hc
        rw [he] at hn; cases hn
    | some e =>
      cases e with
      | tag name =>
        constructor
        · intro h; cases h
        · rintro ⟨h, -⟩
          obtain ⟨name', cs, hn⟩ := h.condition _ _ hc
          rw [he] at hn; cases hn
      | advancement name cs =>
        rw [applied_condition he]
        constructor
        · intro h
          cases h
          refine ⟨⟨rfl, fun id c hid => ?_, fun id ev hid => by cases hid⟩, rfl⟩
          simp only [Instruction.conditionOn?, Option.ite_none_right_eq_some] at hid
          exact hid.1 ▸ ⟨name, cs, he⟩
        · rintro ⟨-, rfl⟩; rfl
  | _ =>
    constructor
    · intro h; cases h
    · rintro ⟨h, -⟩; cases h.kind

theorem applicable_cons_self {r : Registry} {insn : Instruction} {l : List Instruction} :
    r.Applicable (insn :: l) insn ↔ r.Applicable [insn] insn := by
  have hfind (id : FunctionId) (event : Nat) (h : insn.advancementOf? id = some event)
      (l : List Instruction) : (insn :: l).findSome? (·.advancementOf? id) = some event := by
    rw [List.findSome?_cons, h]
  constructor <;> intro h
  · refine ⟨h.kind, h.condition, fun id event hid => ?_⟩
    simpa only [hfind id event hid] using h.advancement id event hid
  · refine ⟨h.kind, h.condition, fun id event hid => ?_⟩
    simpa only [hfind id event hid] using h.advancement id event hid

/-- A later statement sees what the first one leaves as part of what all of them make. -/
theorem applicable_cons_tail {r : Registry} {insn x : Instruction} {l : List Instruction} :
    (r.applied [insn]).Applicable l x ↔ r.Applicable (insn :: l) x := by
  have hevents (id : Nat) :
      (∃ name cs, (r.applied [insn]).events[id]? = some (.advancement name cs)) ↔
        ∃ name cs, r.events[id]? = some (.advancement name cs) := by
    rw [events_applied]
    cases r.events[id]? with
    | none => simp
    | some e => simpa using Event.attach_eq_advancement
  have hfunctions (id : FunctionId) (event : Nat) :
      (∃ f, (r.applied [insn]).functions[id]? = some f ∧
          f.advancement.or (l.findSome? (·.advancementOf? id)) = some event) ↔
        ∃ f, r.functions[id]? = some f ∧
          f.advancement.or ((insn :: l).findSome? (·.advancementOf? id)) = some event := by
    have happ : (insn :: l).findSome? (·.advancementOf? id) =
        ([insn].findSome? (·.advancementOf? id)).or (l.findSome? (·.advancementOf? id)) := by
      rw [← List.findSome?_append]; rfl
    rw [functions_applied, happ]
    cases r.functions[id]? with
    | none => simp
    | some f => simp only [Option.map_some, Option.some.injEq, exists_eq_left', Option.or_assoc]
  constructor <;> intro h
  · exact ⟨h.kind, fun id c hc => (hevents id).mp (h.condition id c hc),
      fun id event hid => (hfunctions id event).mp (h.advancement id event hid)⟩
  · exact ⟨h.kind, fun id c hc => (hevents id).mpr (h.condition id c hc),
      fun id event hid => (hfunctions id event).mpr (h.advancement id event hid)⟩

theorem preapplyAll_ok_iff {r' : Registry} : ∀ {l : List Instruction} {r : Registry},
    r.stage = .apply → (l.forM Instruction.preapply r = .ok () r' ↔
      (∀ insn ∈ l, r.Applicable l insn) ∧ r' = r.applied l)
  | [], r, _ => by
    rw [applied_of_none (by simp) (by simp)]
    constructor
    · intro h; cases h; simp
    · rintro ⟨-, rfl⟩; rfl
  | insn :: l, r, hs => by
    have happ : r.applied (insn :: l) = (r.applied [insn]).applied l := applied_append [insn] l r
    have hs₁ : (r.applied [insn]).stage = .apply := hs
    change (insn.preapply >>= fun _ => l.forM Instruction.preapply) r = _ ↔ _
    constructor
    · intro h
      obtain ⟨u, r₁, h₁, h₂⟩ := Step.bind_ok h
      obtain ⟨ha, rfl⟩ := (preapply_ok_iff hs).mp h₁
      obtain ⟨hl, rfl⟩ := (preapplyAll_ok_iff hs₁).mp h₂
      refine ⟨?_, happ.symm⟩
      intro x hx
      rcases List.mem_cons.mp hx with rfl | hx
      · exact applicable_cons_self.mpr ha
      · exact applicable_cons_tail.mp (hl x hx)
    · rintro ⟨hl, rfl⟩
      have ha := applicable_cons_self.mp (hl insn List.mem_cons_self)
      rw [Step.bind_of_ok ((preapply_ok_iff hs).mpr ⟨ha, rfl⟩), happ]
      exact (preapplyAll_ok_iff hs₁).mpr
        ⟨fun x hx => applicable_cons_tail.mpr (hl x (List.mem_cons_of_mem insn hx)), rfl⟩

end Registry

/-! ## Compiling -/

namespace Program

open Step (after)

theorem onRegistry_of_ok {α : Type} {step : Step Registry α} {p : Program} {a : α} {r : Registry}
    (h : step p.registry = .ok a r) : onRegistry step p = .ok a { p with registry := r } :=
  Step.onPart_of_ok h

theorem onRegistry_of_error {α : Type} {step : Step Registry α} {p : Program} {e : Error}
    {r : Registry} (h : step p.registry = .error e r) :
    onRegistry step p = .error e { p with registry := r } :=
  Step.onPart_of_error h

theorem onRegistry_ok {α : Type} {x : Step Registry α} {p p' : Program} {a : α}
    (h : onRegistry x p = .ok a p') :
    ∃ r, x p.registry = .ok a r ∧ p' = { p with registry := r } :=
  Step.onPart_ok h

theorem succeeds_onRegistry {α : Type} (step : Step Registry α) (p : Program) :
    Step.succeeds (onRegistry step) p = Step.succeeds step p.registry :=
  Step.succeeds_onPart step p

theorem after_onRegistry {α : Type} (step : Step Registry α) (p : Program) :
    after (onRegistry step) p = { p with registry := after step p.registry } :=
  Step.after_onPart step p

/-- The registry in which the apply pass starts. -/
def used (p : Program) : Registry :=
  { p.registry.declared p.preambleStatements with stage := .apply }

/-- The registry that the output of a compilation is read off. -/
def closed (p : Program) : Registry := { p.used.applied p.preambleStatements with stage := .closed }

theorem compile_refused {p : Program} (h : p.registry.stage ≠ .define) :
    compile p = .error (Cause.untimely .alreadyCompiled).error p := by
  unfold compile
  rw [Step.get_bind, if_pos h]; rfl

theorem stage_define_of_compile {p p' : Program} {b : Build} (h : compile p = .ok b p') :
    p.registry.stage = .define := by
  refine Decidable.byContradiction fun hs => ?_
  rw [compile_refused hs] at h
  cases h

/-- The outcomes of a compilation, pass by pass. -/
theorem compile_eq {p : Program} (h : p.registry.stage = .define) :
    compile p =
      match p.preambleStatements.forM Instruction.declare { p.registry with stage := .declare } with
      | .error e r => .error e { p with registry := r }
      | .ok _ r₁ =>
        match p.preambleStatements.forM Instruction.preapply { r₁ with stage := .apply } with
        | .error e r => .error e { p with registry := r }
        | .ok _ r₂ =>
          match ({ p with registry := { r₂ with stage := .closed } } : Program).output with
          | .error e => .error e { p with registry := { r₂ with stage := .closed } }
          | .ok b => .ok b { p with registry := { r₂ with stage := .closed } } := by
  unfold compile
  rw [Step.get_bind, if_neg (fun hn => hn h)]
  have enter (stage : Stage) (q : Program) : onRegistry (Registry.enter stage) q =
      .ok () { q with registry := { q.registry with stage } } := rfl
  rw [Step.bind_of_ok (enter .declare p)]
  cases h₁ : p.preambleStatements.forM Instruction.declare
      { p.registry with stage := .declare } with
  | error e r => exact Step.bind_of_error (onRegistry_of_error h₁)
  | ok u r₁ =>
    rw [Step.bind_of_ok (onRegistry_of_ok h₁), Step.bind_of_ok (enter .apply _)]
    simp only
    cases h₂ : p.preambleStatements.forM Instruction.preapply { r₁ with stage := .apply } with
    | error e r => exact Step.bind_of_error (onRegistry_of_error h₂)
    | ok u r₂ =>
      rw [Step.bind_of_ok (onRegistry_of_ok h₂), Step.bind_of_ok (enter .closed _), Step.get_bind]
      simp only [Step.ofExcept]
      cases ({ p with registry := { r₂ with stage := .closed } } : Program).output <;> rfl

/-- The outcomes of a compilation that gets through the declare pass. -/
theorem compile_of_declarable {p : Program} (h : p.registry.stage = .define)
    (hd : ∀ insn ∈ p.preambleStatements, p.registry.Declarable insn) :
    compile p =
      match p.preambleStatements.forM Instruction.preapply p.used with
      | .error e r => .error e { p with registry := r }
      | .ok _ r =>
        match ({ p with registry := { r with stage := .closed } } : Program).output with
        | .error e => .error e { p with registry := { r with stage := .closed } }
        | .ok b => .ok b { p with registry := { r with stage := .closed } } := by
  have h₁ := (Registry.declareAll_ok_iff (r := { p.registry with stage := .declare }) rfl).mpr
    ⟨hd, rfl⟩
  rw [compile_eq h, h₁]
  rfl

/-- The outcomes of a compilation that gets through the apply pass, too. -/
theorem compile_of_applicable {p : Program} (h : p.registry.stage = .define)
    (hd : ∀ insn ∈ p.preambleStatements, p.registry.Declarable insn)
    (ha : ∀ insn ∈ p.preambleStatements, p.used.Applicable p.preambleStatements insn) :
    compile p =
      match ({ p with registry := p.closed } : Program).output with
      | .error e => .error e { p with registry := p.closed }
      | .ok b => .ok b { p with registry := p.closed } := by
  have h₂ := (Registry.preapplyAll_ok_iff (r := p.used) rfl).mpr ⟨ha, rfl⟩
  rw [compile_of_declarable h hd, h₂]
  rfl

theorem compile_ok_iff {p p' : Program} {b : Build} (h : p.registry.stage = .define) :
    compile p = .ok b p' ↔
      (∀ insn ∈ p.preambleStatements, p.registry.Declarable insn) ∧
      (∀ insn ∈ p.preambleStatements, p.used.Applicable p.preambleStatements insn) ∧
      ({ p with registry := p.closed } : Program).output = .ok b ∧
      p' = { p with registry := p.closed } := by
  constructor
  · intro hc
    have hd : ∀ insn ∈ p.preambleStatements, p.registry.Declarable insn := by
      rw [compile_eq h] at hc
      cases h₁ : p.preambleStatements.forM Instruction.declare
          { p.registry with stage := .declare } with
      | error e r => rw [h₁] at hc; cases hc
      | ok u r₁ => exact ((Registry.declareAll_ok_iff rfl).mp h₁).1
    have ha : ∀ insn ∈ p.preambleStatements, p.used.Applicable p.preambleStatements insn := by
      rw [compile_of_declarable h hd] at hc
      cases h₂ : p.preambleStatements.forM Instruction.preapply p.used with
      | error e r => rw [h₂] at hc; cases hc
      | ok u r₂ => exact ((Registry.preapplyAll_ok_iff rfl).mp h₂).1
    rw [compile_of_applicable h hd ha] at hc
    cases ho : ({ p with registry := p.closed } : Program).output with
    | error e => rw [ho] at hc; cases hc
    | ok b' => rw [ho] at hc; cases hc; exact ⟨hd, ha, rfl, rfl⟩
  · rintro ⟨hd, ha, ho, rfl⟩
    rw [compile_of_applicable h hd ha, ho]

end Program

end Datapack
