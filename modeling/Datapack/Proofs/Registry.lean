import Datapack.Proofs.Step
import Datapack.Program.Passes

/-!
# What can happen to a registry

Each operation on a registry has one equation that lists its outcomes
(`createEvent_eq` to `addRevoke_eq`). From these, `Change` says once what an
operation can do to the registry, refused or not: nothing, or one of five
changes, each with the stage in which it happens. Every invariant of
registries is a case analysis on `Change`.

**Growth.** `Grows r r'`: the events of `r` are still there with their
kinds, and so are its functions. No operation and no pass loses any
(`Change.grows`), so what `r` holds is held later too (`Holds.mono`).

**Openness.** In the define stage no function has been used or made the
handler of an advancement, and functions have names of their own (`Fresh`).
-/
namespace Datapack

/-- Nothing has used the function, and it handles no advancement. -/
def Function.Idle (f : Function) : Prop := f.isUsed = false ∧ f.advancement = none

namespace Registry

open Step (after)

/-! ## Outcomes -/

theorem require_ok {action : Action} {r : Registry} (h : r.stage = action.stage) :
    require action r = .ok () r := if_pos h

theorem require_error {action : Action} {r : Registry} (h : r.stage ≠ action.stage) :
    require action r = .error (Cause.untimely (.notNow action r.stage)).error r := if_neg h

theorem createEvent_eq (event : Event) (r : Registry) :
    createEvent event r =
      if r.stage = .define then
        .ok ⟨r.events.length, event.kind⟩ { r with events := r.events ++ [event] }
      else .error (Cause.untimely (.notNow .createEvent r.stage)).error r := by
  unfold createEvent
  split
  · rename_i h
    rw [Step.bind_of_ok (require_ok h)]; rfl
  · rename_i h
    exact Step.bind_of_error (require_error h)

theorem addFunction_eq (f : Function) (r : Registry) :
    addFunction f r =
      if r.stage = .define then
        if r.functions.any (·.name = f.name) then
          .error (Cause.misplaced (.secondFunction f.name)).error r
        else .ok r.functions.length { r with functions := r.functions ++ [f] }
      else .error (Cause.untimely (.notNow .createFunction r.stage)).error r := by
  unfold addFunction
  split
  · rename_i h
    rw [Step.bind_of_ok (require_ok h), Step.get_bind]
    split <;> rfl
  · rename_i h
    exact Step.bind_of_error (require_error h)

theorem markUsed_eq (id : FunctionId) (r : Registry) :
    markUsed id r =
      if r.stage = .declare then
        match r.functions[id]? with
        | some f => .ok () { r with functions := r.functions.set id { f with isUsed := true } }
        | none => .error (Cause.notFound .function (numbered id)).error r
      else .error (Cause.untimely (.notNow .markUsed r.stage)).error r := by
  unfold markUsed
  split
  · rename_i h
    rw [Step.bind_of_ok (require_ok h), Step.get_bind, Step.ofExcept_bind, function]
    cases r.functions[id]? <;> rfl
  · rename_i h
    exact Step.bind_of_error (require_error h)

theorem addCondition_eq (handle : EventHandle) (c : Condition) (r : Registry) :
    addCondition handle c r =
      if r.stage = .apply then
        match r.events[handle.id]? with
        | some (.advancement name conditions) =>
          .ok () { r with
            events := r.events.set handle.id (.advancement name (conditions ++ [c])) }
        | some (.tag name) =>
          .error (Cause.wrongEventKind .addEventCondition name .advancement .tag).error r
        | none => .error (Cause.notFound .event (numbered handle.id)).error r
      else .error (Cause.untimely (.notNow .addCondition r.stage)).error r := by
  unfold addCondition
  split
  · rename_i h
    rw [Step.bind_of_ok (require_ok h), Step.get_bind, Step.ofExcept_bind, event, eventAt]
    cases r.events[handle.id]? with
    | none => rfl
    | some e => cases e <;> rfl
  · rename_i h
    exact Step.bind_of_error (require_error h)

theorem addRevoke_eq (id : FunctionId) (handle : EventHandle) (r : Registry) :
    addRevoke id handle r =
      if r.stage = .apply then
        match handle.kind, r.events[handle.id]?, r.functions[id]? with
        | .tag, some event, _ =>
          .error (Cause.wrongEventKind .eventHandler event.name .advancement .tag).error r
        | .tag, none, _ => .error (Cause.notFound .event (numbered handle.id)).error r
        | .advancement, _, none => .error (Cause.notFound .function (numbered id)).error r
        | .advancement, _, some f =>
          match f.advancement with
          | none =>
            .ok () { r with
              functions := r.functions.set id { f with advancement := some handle.id } }
          | some known =>
            if known = handle.id then .ok () r
            else .error (Cause.misplaced (.secondAdvancement f.name)).error r
      else .error (Cause.untimely (.notNow .addRevoke r.stage)).error r := by
  unfold addRevoke
  by_cases h : r.stage = .apply
  · rw [if_pos h, Step.bind_of_ok (require_ok h)]
    cases handle.kind with
    | tag =>
      simp only
      rw [Step.get_bind, Step.ofExcept_bind, event, eventAt]
      cases r.events[handle.id]? <;> rfl
    | advancement =>
      simp only
      rw [Step.get_bind, Step.ofExcept_bind, function]
      cases r.functions[id]? with
      | none => rfl
      | some f =>
        simp only
        cases f.advancement with
        | none => rfl
        | some known => simp only; split <;> rfl
  · rw [if_neg h]
    exact Step.bind_of_error (require_error h)

/-! ## Changes -/

/-- What one operation can do to a registry. -/
inductive Change (r : Registry) : Registry → Prop where
  | nothing : Change r r
  | event (e : Event) (stage : r.stage = .define) : Change r { r with events := r.events ++ [e] }
  | function (f : Function) (stage : r.stage = .define) (idle : f.Idle)
    (fresh : ∀ g ∈ r.functions, g.name ≠ f.name) :
    Change r { r with functions := r.functions ++ [f] }
  | used (id : FunctionId) (f : Function) (stage : r.stage = .declare)
    (known : r.functions[id]? = some f) :
    Change r { r with functions := r.functions.set id { f with isUsed := true } }
  | condition (id : Nat) (name : String) (cs : List Condition) (c : Condition)
    (stage : r.stage = .apply) (known : r.events[id]? = some (.advancement name cs)) :
    Change r { r with events := r.events.set id (.advancement name (cs ++ [c])) }
  | revoke (id : FunctionId) (f : Function) (event : Nat) (stage : r.stage = .apply)
    (known : r.functions[id]? = some f) (free : f.advancement = none) :
    Change r { r with functions := r.functions.set id { f with advancement := some event } }

theorem change_createEvent (e : Event) (r : Registry) : Change r (after (createEvent e) r) := by
  unfold after
  rw [createEvent_eq]
  by_cases h : r.stage = .define
  · rw [if_pos h]; exact .event e h
  · rw [if_neg h]; exact .nothing

theorem change_addFunction {f : Function} (hf : f.Idle) (r : Registry) :
    Change r (after (addFunction f) r) := by
  unfold after
  rw [addFunction_eq]
  by_cases h : r.stage = .define
  · rw [if_pos h]
    split
    · rename_i hr
      split at hr
      · cases hr
      · rename_i hn
        cases hr
        refine .function f h hf fun g hg he => hn ?_
        exact List.any_eq_true.mpr ⟨g, hg, decide_eq_true he⟩
    · rename_i hr
      split at hr
      · cases hr; exact .nothing
      · cases hr
  · rw [if_neg h]; exact .nothing

theorem change_markUsed (id : FunctionId) (r : Registry) : Change r (after (markUsed id) r) := by
  unfold after
  rw [markUsed_eq]
  by_cases h : r.stage = .declare
  · rw [if_pos h]
    cases hf : r.functions[id]? with
    | none => exact .nothing
    | some f => exact .used id f h hf
  · rw [if_neg h]; exact .nothing

theorem change_addCondition (handle : EventHandle) (c : Condition) (r : Registry) :
    Change r (after (addCondition handle c) r) := by
  unfold after
  rw [addCondition_eq]
  by_cases h : r.stage = .apply
  · rw [if_pos h]
    cases he : r.events[handle.id]? with
    | none => exact .nothing
    | some e =>
      cases e with
      | advancement name cs => exact .condition handle.id name cs c h he
      | tag name => exact .nothing
  · rw [if_neg h]; exact .nothing

theorem change_addRevoke (id : FunctionId) (handle : EventHandle) (r : Registry) :
    Change r (after (addRevoke id handle) r) := by
  unfold after
  rw [addRevoke_eq]
  by_cases h : r.stage = .apply
  · rw [if_pos h]
    cases handle.kind with
    | tag => cases r.events[handle.id]? <;> exact .nothing
    | advancement =>
      cases hf : r.functions[id]? with
      | none => exact .nothing
      | some f =>
        cases ha : f.advancement with
        | none => simpa [ha] using Change.revoke id f handle.id h hf ha
        | some known => by_cases hk : known = handle.id <;> simp [ha, hk, Change.nothing]
  · rw [if_neg h]; exact .nothing

theorem change_construct (insn : Instruction) (r : Registry) :
    Change r (after insn.construct r) := by
  have create (e : Event) : Change r
      (after (do return Operand.event (← createEvent e) : Step Registry Operand) r) :=
    Step.after_returning (change_createEvent e r) fun handle _ => Operand.event handle
  unfold Instruction.construct
  rw [Step.after_within]
  cases insn with
  | advEvent name => exact create _
  | tagEvent name => exact create _
  | _ => exact .nothing

theorem change_declare (insn : Instruction) (r : Registry) : Change r (after insn.declare r) := by
  unfold Instruction.declare
  rw [Step.after_within]
  cases insn with
  | eventHandler handler event => exact change_markUsed handler r
  | setupFn function => exact change_markUsed function r
  | _ => exact .nothing

theorem change_preapply (insn : Instruction) (r : Registry) : Change r (after insn.preapply r) := by
  unfold Instruction.preapply
  rw [Step.after_within]
  cases insn with
  | addEventCondition event path value => exact change_addCondition event _ r
  | eventHandler handler event =>
    simp only
    cases event.kind with
    | tag => exact .nothing
    | advancement => exact change_addRevoke handler event r
  | _ => exact .nothing

/-! ## Growth -/

/-- Every event of `r` is in `r'` with its kind, and every function is there. -/
structure Grows (r r' : Registry) : Prop where
  kinds : r.events.map Event.kind <+: r'.events.map Event.kind
  functions : r.functions.length ≤ r'.functions.length

theorem Grows.refl (r : Registry) : Grows r r := ⟨List.prefix_refl _, Nat.le_refl _⟩

theorem Grows.trans {r₁ r₂ r₃ : Registry} (h : Grows r₁ r₂) (h' : Grows r₂ r₃) : Grows r₁ r₃ :=
  ⟨h.kinds.trans h'.kinds, Nat.le_trans h.functions h'.functions⟩

theorem Grows.enter {r r' : Registry} (h : Grows r r') (stage : Stage) :
    Grows r { r' with stage } := ⟨h.kinds, h.functions⟩

/-- Replacing an entry by one that `g` does not tell from it does not show through `g`. -/
theorem map_set_same {α β : Type} {l : List α} {id : Nat} {a b : α} {g : α → β}
    (h : l[id]? = some a) (hg : g b = g a) : (l.set id b).map g = l.map g := by
  have hget : (l.map g)[id]? = some (g a) := by rw [List.getElem?_map, h]; rfl
  obtain ⟨hlt, hget⟩ := List.getElem?_eq_some_iff.mp hget
  rw [List.map_set, hg, ← hget]
  exact List.set_getElem_self hlt

theorem Change.grows {r r' : Registry} (h : Change r r') : Grows r r' := by
  cases h with
  | nothing => exact .refl r
  | event e _ => exact ⟨by simp, Nat.le_refl _⟩
  | function f _ _ _ => exact ⟨List.prefix_refl _, by simp⟩
  | used id f _ _ => exact ⟨List.prefix_refl _, by simp⟩
  | condition id name cs c _ known =>
    -- The new event has the kind of the one it replaces.
    have hsame : (r.events.set id (.advancement name (cs ++ [c]))).map Event.kind =
        r.events.map Event.kind := map_set_same known rfl
    exact ⟨hsame ▸ List.prefix_refl _, Nat.le_refl _⟩
  | revoke id f event _ _ _ => exact ⟨List.prefix_refl _, by simp⟩

/-- No operation changes the stage. -/
theorem Change.stage_eq {r r' : Registry} (h : Change r r') : r'.stage = r.stage := by
  cases h <;> rfl

/-- After the define stage there are no more functions. -/
theorem Change.length_functions {r r' : Registry} (h : Change r r') (hs : r.stage ≠ .define) :
    r'.functions.length = r.functions.length := by
  cases h with
  | function f stage _ _ => exact absurd stage hs
  | used id f _ _ => exact List.length_set
  | revoke id f event _ _ _ => exact List.length_set
  | _ => rfl

/-- The operand stands for something in the registry: an event with the kind that the handle says,
or a function. -/
def Holds (r : Registry) : Operand → Prop
  | .str _ => True
  | .event handle => ∃ e, r.events[handle.id]? = some e ∧ e.kind = handle.kind
  | .func id => id < r.functions.length

theorem Holds.mono {r r' : Registry} (h : Grows r r') {o : Operand} (ho : r.Holds o) :
    r'.Holds o := by
  cases o with
  | str text => trivial
  | func id => exact Nat.lt_of_lt_of_le ho h.functions
  | event handle =>
    obtain ⟨e, he, hk⟩ := ho
    obtain ⟨rest, hrest⟩ := h.kinds
    have hlt : handle.id < (r.events.map Event.kind).length := by
      simpa using (List.getElem?_eq_some_iff.mp he).1
    have hk' : (r'.events.map Event.kind)[handle.id]? = some handle.kind := by
      rw [← hrest, List.getElem?_append_left hlt]
      simp [he, hk]
    show ∃ e, r'.events[handle.id]? = some e ∧ e.kind = handle.kind
    simpa using hk'

/-! ## Openness -/

/-- Nothing has been compiled yet. -/
structure Fresh (r : Registry) : Prop where
  idle : ∀ f ∈ r.functions, f.Idle
  names : (r.functions.map Function.name).Nodup

theorem Change.fresh {r r' : Registry} (h : Change r r') (hd : r.stage = .define)
    (hf : r.Fresh) : r'.Fresh := by
  cases h with
  | nothing => exact hf
  | event e _ => exact ⟨hf.idle, hf.names⟩
  | function f _ idle fresh =>
    refine ⟨fun g hg => ?_, ?_⟩
    · rcases List.mem_append.mp hg with hg | hg
      · exact hf.idle g hg
      · rw [List.mem_singleton.mp hg]; exact idle
    · rw [List.map_append, List.nodup_append]
      refine ⟨hf.names, by simp, ?_⟩
      rintro a ha b hb rfl
      obtain ⟨g, hg, rfl⟩ := List.mem_map.mp ha
      exact fresh g hg (by simpa using hb)
  | used id f stage _ => rw [hd] at stage; cases stage
  | condition id name cs c stage _ => rw [hd] at stage; cases stage
  | revoke id f event stage _ _ => rw [hd] at stage; cases stage

end Registry

end Datapack
