import Datapack.Proofs.Program.Reference

/-!
# Functions and their bodies

The bodies of a program are a list beside the functions of its registry, and a
function owns the body that has its number. A function that is declared on the
registry takes a number and gets no body. From then on the last functions have
none, as many as were declared that way.

**What is in a body.** `History.commandsOf_eq`: the statements that were pushed
to its number and not refused, in their order.

**What becomes of it.** `Open.sole_function`: a function that has a body, and is
used or pinned but not inline, is written once, with the commands of its body.

**Results.** `bodies_owned`: this, over any run, for every function whose number
has a body. `bodyless_function_lost`: a function without a body takes no
statements, and is not written although it is pinned.
-/
namespace Datapack

namespace Program

open Step (after)

/-! ## Pushed statements -/

/-- The statements in the body of a function. -/
def commandsOf (p : Program) (id : FunctionId) : List Instruction :=
  (p.bodies[id]?.map (·.commands)).getD []

theorem commandsOf_of_bodies {p p' : Program} (h : p'.bodies = p.bodies) (id : FunctionId) :
    p'.commandsOf id = p.commandsOf id := by
  unfold commandsOf
  rw [h]

theorem commandsOf_set {p : Program} {k : FunctionId} {body body' : Body}
    (known : p.bodies[k]? = some body) (id : FunctionId) :
    ({ p with bodies := p.bodies.set k body' } : Program).commandsOf id =
      if k = id then body'.commands else p.commandsOf id := by
  have hlt := (List.getElem?_eq_some_iff.mp known).1
  unfold commandsOf
  by_cases hk : k = id
  · subst hk
    simp [hlt]
  · simp [hk]

/-- The statement that a call pushes to the body of a function. -/
def Call.pushed? (id : FunctionId) : Call → Option Instruction
  | .edit (.pushBody k insn) => if k = id then some insn else none
  | _ => none

theorem commandsOf_addFunction (f : Function) (p : Program) (id : FunctionId) :
    (after (addFunction f) p).commandsOf id = p.commandsOf id := by
  have h := addFunction_eq f p
  split at h
  · split at h
    · rw [Step.after_of_error h]
    · rw [Step.after_of_ok h]
      unfold commandsOf
      rw [List.getElem?_append]
      split
      · rfl
      · -- The new body is empty, and so is what a number without a body has.
        rename_i hlt
        rw [List.getElem?_eq_none (Nat.not_lt.mp hlt)]
        cases hb : [({} : Body)][id - p.bodies.length]? with
        | none => rfl
        | some body =>
          have hm := List.mem_of_getElem? hb
          rw [List.mem_singleton.mp hm]
          rfl
  · rw [Step.after_of_error h]

theorem bodies_define (name : String) (insn : Instruction) (p : Program) :
    (after (define name insn) p).bodies = p.bodies := by
  cases he : insn.event? with
  | none => rw [Step.after_of_error (define_of_none he name p)]
  | some e =>
    have h := define_of_event he name p
    split at h
    · rw [Step.after_of_ok h]
    · rw [Step.after_of_error h]

theorem bodies_defineText (name text : String) (arguments : List Operand) (p : Program) :
    (after (defineText name text arguments) p).bodies = p.bodies := by
  unfold after defineText
  rw [Step.ofExcept_bind]
  cases Instruction.read text arguments with
  | error e => rfl
  | ok insn => exact bodies_define name insn p

theorem bodies_pushTop (insn : Instruction) (p : Program) :
    (after (pushTop insn) p).bodies = p.bodies := by
  unfold after pushTop
  rw [Step.get_bind, Step.ofExcept_bind]
  cases p.checkOpen insn with
  | error e => rfl
  | ok u => by_cases hk : insn.kind = .preamble <;> simp only [hk, ne_eq] <;> rfl

theorem changeBody_cases (k : FunctionId) (change : Body → Body) (p : Program) :
    (∃ e, changeBody k change p = .error e p) ∨ ∃ body, p.bodies[k]? = some body ∧
      changeBody k change p = .ok () { p with bodies := p.bodies.set k (change body) } := by
  unfold changeBody
  cases p.bodies[k]? with
  | none => exact .inl ⟨_, rfl⟩
  | some body => exact .inr ⟨body, rfl, rfl⟩

theorem pushPreamble_cases (k : FunctionId) (insn : Instruction) (p : Program) :
    (∃ e, pushPreamble k insn p = .error e p) ∨
      ∃ body, p.bodies[k]? = some body ∧ pushPreamble k insn p = .ok () { p with
        bodies := p.bodies.set k { body with preamble := body.preamble ++ [insn] } } := by
  unfold pushPreamble
  rw [Step.get_bind, Step.ofExcept_bind]
  cases p.checkOpen insn with
  | error e => exact .inl ⟨e, rfl⟩
  | ok u =>
    simp only
    split
    · exact .inl ⟨_, rfl⟩
    · split
      · exact .inl ⟨_, rfl⟩
      · exact changeBody_cases k _ p

theorem pushBody_cases (k : FunctionId) (insn : Instruction) (p : Program) :
    (∃ e, pushBody k insn p = .error e p) ∨
      ∃ body, p.bodies[k]? = some body ∧ pushBody k insn p = .ok () { p with
        bodies := p.bodies.set k { body with commands := body.commands ++ [insn] } } := by
  unfold pushBody
  rw [Step.get_bind, Step.ofExcept_bind]
  cases p.checkOpen insn with
  | error e => exact .inl ⟨e, rfl⟩
  | ok u =>
    simp only
    split
    · exact .inl ⟨_, rfl⟩
    · exact changeBody_cases k _ p

/-- In the define stage a statement that belongs into a body gets into any body that there is. -/
theorem pushBody_of_body {p : Program} {k : FunctionId} {insn : Instruction} {body : Body}
    (hs : p.registry.stage = .define) (hk : insn.kind = .emitter) (hb : p.bodies[k]? = some body) :
    pushBody k insn p = .ok () { p with
      bodies := p.bodies.set k { body with commands := body.commands ++ [insn] } } := by
  have hopen : p.checkOpen insn = .ok () := by simp [checkOpen, hs, hk]
  unfold pushBody
  rw [Step.get_bind, Step.ofExcept_bind, hopen]
  simp only [hk, ne_eq, not_true_eq_false, if_false, changeBody, hb]

theorem commandsOf_pushPreamble (k : FunctionId) (insn : Instruction) (p : Program)
    (id : FunctionId) : (after (pushPreamble k insn) p).commandsOf id = p.commandsOf id := by
  rcases pushPreamble_cases k insn p with ⟨e, h⟩ | ⟨body, hb, h⟩
  · rw [Step.after_of_error h]
  · rw [Step.after_of_ok h, commandsOf_set hb]
    split
    · rename_i hk
      subst hk
      simp [commandsOf, hb]
    · rfl

/-- What a call does to the statements of a body. -/
theorem Call.commandsOf (c : Call) (p : Program) (id : FunctionId) :
    (after c.perform p).commandsOf id = p.commandsOf id ++
      (if Step.succeeds c.perform p then [c] else []).filterMap (·.pushed? id) := by
  let P (q : Program) : Prop := q.commandsOf id = p.commandsOf id
  -- All calls but one push nothing.
  have quiet (hc : c.pushed? id = none) (h : P (after c.perform p)) :
      (after c.perform p).commandsOf id = p.commandsOf id ++
        (if Step.succeeds c.perform p then [c] else []).filterMap (·.pushed? id) := by
    rw [h]
    split <;> simp [hc]
  cases c with
  | compile =>
    refine quiet rfl (Step.after_returning (P := P) ?_ fun _ _ => none)
    exact commandsOf_of_bodies (by rw [after_compile]) id
  | direct d =>
    refine quiet rfl (commandsOf_of_bodies ?_ id)
    show (after (onRegistry d.perform) p).bodies = p.bodies
    rw [after_onRegistry]
  | edit e =>
    cases e with
    | addFunction name isInline isPinned =>
      exact quiet rfl (Step.after_returning (P := P) (commandsOf_addFunction _ p id) fun k _ =>
        some (Operand.func k))
    | define name insn =>
      refine quiet rfl (Step.after_returning (P := P) ?_ fun index p' => (p'.value index).toOption)
      exact commandsOf_of_bodies (bodies_define name insn p) id
    | defineText name text arguments =>
      refine quiet rfl (Step.after_returning (P := P) ?_ fun index p' => (p'.value index).toOption)
      exact commandsOf_of_bodies (bodies_defineText name text arguments p) id
    | bind name value => exact quiet rfl rfl
    | pushTop insn =>
      refine quiet rfl (Step.after_returning (P := P) ?_ fun _ _ => none)
      exact commandsOf_of_bodies (bodies_pushTop insn p) id
    | pushPreamble k insn =>
      exact quiet rfl (Step.after_returning (P := P) (commandsOf_pushPreamble k insn p id)
        fun _ _ => none)
    | pushBody k insn =>
      rcases pushBody_cases k insn p with ⟨e, h⟩ | ⟨body, hb, h⟩
      · have h' : (Call.edit (.pushBody k insn)).perform p = .error e p := Step.bind_of_error h
        rw [Step.after_of_error h', Step.succeeds_of_error h']
        simp
      · have h' : (Call.edit (.pushBody k insn)).perform p = .ok none _ := Step.bind_of_ok h
        rw [Step.after_of_ok h', Step.succeeds_of_ok h', commandsOf_set hb]
        by_cases hk : k = id
        · subst hk
          simp [pushed?, Program.commandsOf, hb]
        · simp [pushed?, hk]

namespace History

/-- The statements that are pushed to a body and not refused. -/
def pushed (calls : List Call) (id : FunctionId) : List Instruction :=
  (accepted {} calls).filterMap (·.pushed? id)

theorem commandsOf_from (id : FunctionId) : ∀ (calls : List Call) (h : History),
    (calls.foldl call h).program.commandsOf id =
      h.program.commandsOf id ++ (accepted h calls).filterMap (·.pushed? id)
  | [], _ => by simp [accepted]
  | c :: calls, h => by
    have hl := commandsOf_from id calls (h.call c)
    rw [program_call, c.commandsOf, List.append_assoc] at hl
    rw [accepted, List.filterMap_append]
    exact hl

theorem commandsOf_eq (calls : List Call) (id : FunctionId) :
    (of calls).program.commandsOf id = pushed calls id :=
  commandsOf_from id calls {}

/-- Bodies are never given up. -/
theorem length_bodies_le (calls later : List Call) :
    (of calls).program.bodies.length ≤ (of (calls ++ later)).program.bodies.length := by
  rw [of_append]
  refine foldl_induct (P := fun h => (of calls).program.bodies.length ≤ h.program.bodies.length)
    (Nat.le_refl _) fun c _ h hn => ?_
  rw [program_call]
  refine Nat.le_trans hn ?_
  cases c with
  | edit e => exact (e.change h.program).length_bodies
  | compile =>
    refine Step.after_returning (P := fun q : Program =>
      h.program.bodies.length ≤ q.bodies.length) ?_ fun _ _ => (none : Option Operand)
    exact Nat.le_of_eq (by rw [after_compile])
  | direct d =>
    show h.program.bodies.length ≤ (after (onRegistry d.perform) h.program).bodies.length
    exact Nat.le_of_eq (by rw [after_onRegistry])

end History

/-! ## Written functions -/

theorem name_of_written? {p : Program} {entry : (Function × Body) × FunctionId}
    {c : CompiledFunction} (h : p.written? entry = some c) : c.name = entry.1.1.name := by
  simp only [written?, Option.ite_none_right_eq_some, Option.some.injEq] at h
  rw [← h.2]

/-- Where names differ, there is one entry of a name. -/
theorem filter_name {l : List CompiledFunction} {c : CompiledFunction}
    (hl : (l.map (·.name)).Nodup) (hc : c ∈ l) : l.filter (·.name = c.name) = [c] := by
  obtain ⟨l₁, l₂, rfl⟩ := List.append_of_mem hc
  rw [List.map_append, List.map_cons, List.perm_middle.nodup_iff, List.nodup_cons,
    ← List.map_append] at hl
  have other {d : CompiledFunction} (hd : d ∈ l₁ ++ l₂) : d.name ≠ c.name :=
    fun hn => hl.1 (List.mem_map.mpr ⟨d, hd, hn⟩)
  have h₁ : l₁.filter (·.name = c.name) = [] :=
    List.filter_eq_nil_iff.mpr fun d hd => by simpa using other (List.mem_append_left l₂ hd)
  have h₂ : l₂.filter (·.name = c.name) = [] :=
    List.filter_eq_nil_iff.mpr fun d hd => by simpa using other (List.mem_append_right l₁ hd)
  simp [h₁, h₂]

namespace Open

variable {p : Program} (hp : p.Open)
include hp

theorem nodup_functionNames : p.reference.functionNames.Nodup := by
  unfold Build.functionNames reference
  rw [List.Nodup, List.pairwise_map, List.pairwise_filterMap, List.pairwise_iff_getElem]
  intro i j hi hj hij c hc c' hc' hn
  rw [name_of_written? hc, name_of_written? hc'] at hn
  have entry (k : Nat) (hk : k < (p.registry.functions.zip p.bodies).zipIdx.length) :
      p.registry.functions[k]? = some (p.registry.functions.zip p.bodies).zipIdx[k].1.1 := by
    rw [List.length_zipIdx, List.length_zip] at hk
    simp [List.getElem?_eq_getElem (Nat.lt_of_lt_of_le hk (Nat.min_le_left _ _))]
  exact Nat.ne_of_lt hij (hp.id_of_name (entry i hi) (entry j hj) hn)

theorem sole_function {id : FunctionId} {f : Function} {body : Body}
    (hf : p.registry.functions[id]? = some f) (hb : p.bodies[id]? = some body)
    (hk : p.isKept id f = true) :
    p.reference.functions.filter (·.name = f.name) =
      [⟨f.name, body.commands.filterMap p.command?⟩] := by
  have hzip : ((f, body), id) ∈ (p.registry.functions.zip p.bodies).zipIdx :=
    List.mem_zipIdx_iff_getElem?.mpr (List.getElem?_zip_eq_some.mpr ⟨hf, hb⟩)
  have hmem : ⟨f.name, body.commands.filterMap p.command?⟩ ∈ p.reference.functions :=
    List.mem_filterMap.mpr ⟨_, hzip, by simp [written?, hk]⟩
  exact filter_name hp.nodup_functionNames hmem

/-- What a compilation leaves at a number is what it has made of the function there. -/
theorem settled_of_compile {p₁ : Program} {b : Build} (hc : compile p = .ok b p₁) {id : FunctionId}
    {f : Function} (hf : p₁.registry.functions[id]? = some f) :
    ∃ f₀, p.registry.functions[id]? = some f₀ ∧ p.settled id f₀ = f := by
  obtain ⟨-, -, rfl⟩ := hp.compile_ok_iff_compilable.mp hc
  change p.closed.functions[id]? = some f at hf
  rwa [hp.functions_closed, Option.map_eq_some_iff] at hf

/-- A compiled function has the commands of its body. -/
theorem function_of_compile {p₁ : Program} {b : Build} (hc : compile p = .ok b p₁)
    {id : FunctionId} {f : Function} {body : Body} (hf : p₁.registry.functions[id]? = some f)
    (hb : p.bodies[id]? = some body) (hi : f.isInline = false)
    (hu : f.isUsed = true ∨ f.isPinned = true) :
    ∃ commands, b.functions.filter (·.name = f.name) = [⟨f.name, commands⟩] ∧
      body.commands.mapM (Instruction.command p₁.registry) = .ok commands := by
  obtain ⟨f₀, hf₀, rfl⟩ := hp.settled_of_compile hc hf
  obtain ⟨hcompilable, rfl, rfl⟩ := hp.compile_ok_iff_compilable.mp hc
  have hemitted : (p.settled id f₀).isEmitted = true := by
    simpa [Function.isEmitted, hi] using hu
  have hkept : p.isKept id f₀ = true := isEmitted_settled p id f₀ ▸ hemitted
  have hwritten := hp.compileFunction_closed hcompilable hf₀ hb
  rw [compileFunction, if_pos hemitted, Step.except_bind_ok] at hwritten
  obtain ⟨commands, hcommands, hout⟩ := hwritten
  refine ⟨commands, ?_, hcommands⟩
  have hname : (p.settled id f₀).name = f₀.name := rfl
  rw [hname, hp.sole_function hf₀ hb hkept]
  simp only [written?, hkept, if_true, Option.toList_some] at hout
  exact (Except.ok.inj hout).symm

/-- A function without a body is not written. -/
theorem no_function {p₁ : Program} {b : Build} (hc : compile p = .ok b p₁) {id : FunctionId}
    {f : Function} (hf : p₁.registry.functions[id]? = some f) (hb : p.bodies.length ≤ id) :
    b.functions.filter (·.name = f.name) = [] := by
  obtain ⟨f₀, hf₀, rfl⟩ := hp.settled_of_compile hc hf
  obtain ⟨-, rfl, rfl⟩ := hp.compile_ok_iff_compilable.mp hc
  refine List.filter_eq_nil_iff.mpr fun c hm hn => ?_
  obtain ⟨⟨⟨g, body⟩, k⟩, hk, hw⟩ := List.mem_filterMap.mp hm
  obtain ⟨hg, hbody⟩ := List.getElem?_zip_eq_some.mp (List.mem_zipIdx_iff_getElem?.mp hk)
  have hlt := (List.getElem?_eq_some_iff.mp hbody).1
  have hname : g.name = f₀.name := (name_of_written? hw).symm.trans (of_decide_eq_true hn)
  rw [hp.id_of_name hg hf₀ hname] at hlt
  omega

end Open

/-! ## Numbers that have a body -/

theorem addFunction_ok {f : Function} {p p' : Program} {id : FunctionId}
    (h : addFunction f p = .ok id p') :
    id = p.registry.functions.length ∧ p'.bodies.length = p.bodies.length + 1 := by
  rw [addFunction_eq] at h
  split at h
  · split at h
    · cases h
    · cases h; exact ⟨rfl, List.length_append⟩
  · cases h

/-- A function that was added while all functions had a body keeps its own. -/
theorem History.lt_length_bodies {before later : List Call} {name : String}
    {isInline isPinned : Bool} {id : FunctionId} {p₁ : Program}
    (hadd : addFunction { name, isInline, isPinned } (of before).program = .ok id p₁)
    (hbare : bare before = 0) :
    id < (of (before ++ .edit (.addFunction name isInline isPinned) :: later)).program.bodies.length
    := by
  obtain ⟨hid, hbodies⟩ := addFunction_ok hadd
  have haligned := aligned before
  have hstep : (of (before ++ [.edit (.addFunction name isInline isPinned)])).program = p₁ := by
    rw [of_append, List.foldl_cons, List.foldl_nil, program_call]
    exact Step.after_of_ok (Step.bind_of_ok hadd)
  have hgrown := length_bodies_le (before ++ [.edit (.addFunction name isInline isPinned)]) later
  rw [hstep, hbodies, List.append_assoc, List.singleton_append] at hgrown
  rw [hbare, ← hid] at haligned
  exact haligned ▸ hgrown

/-- **Ownership.** Take any calls on a program and on its registry. The numbers that have a body are
those that are followed by at least as many functions as were declared without one; among them is
every number that was handed out before the first of these.

In the define stage, a statement that belongs into a body can be pushed to exactly these numbers.
Once the program is compiled, a function that is used or pinned, and not inline, is written once if
its number has a body, with the commands of the statements that were pushed to the number, and is
not written otherwise. -/
theorem bodies_owned (calls : List Call) (p : Program) (hp : (History.of calls).program = p) :
    (∀ before later name isInline isPinned id p₁,
      calls = before ++ .edit (.addFunction name isInline isPinned) :: later →
      addFunction { name, isInline, isPinned } (History.of before).program = .ok id p₁ →
      History.bare before = 0 → id + History.bare calls < p.registry.functions.length) ∧
    ∀ id,
      (p.registry.stage = .define → ∀ insn : Instruction, insn.kind = .emitter →
        ((∃ p₁, pushBody id insn p = .ok () p₁) ↔
          id + History.bare calls < p.registry.functions.length)) ∧
      ∀ b p₁ f, compile p = .ok b p₁ → p₁.registry.functions[id]? = some f →
        f.isInline = false → f.isUsed = true ∨ f.isPinned = true →
        (id + History.bare calls < p.registry.functions.length →
          ∃ commands, b.functions.filter (·.name = f.name) = [⟨f.name, commands⟩] ∧
            (History.pushed calls id).mapM (Instruction.command p₁.registry) = .ok commands) ∧
        (p.registry.functions.length ≤ id + History.bare calls →
          b.functions.filter (·.name = f.name) = []) := by
  subst hp
  rw [← History.aligned calls]
  refine ⟨?_, fun id => ⟨fun hs insn hk => ⟨?_, fun hid => ?_⟩, fun b p₁ f hc hf hi hu => ?_⟩⟩
  · rintro before later name isInline isPinned id p₁ rfl hadd hbare
    exact Nat.add_lt_add_right (History.lt_length_bodies hadd hbare) _
  · rintro ⟨p₁, h⟩
    rcases pushBody_cases id insn (History.of calls).program with ⟨e, h'⟩ | ⟨body, hb, -⟩
    · rw [h'] at h; cases h
    · exact Nat.add_lt_add_right (List.getElem?_eq_some_iff.mp hb).1 _
  · have hlt := Nat.lt_of_add_lt_add_right hid
    exact ⟨_, pushBody_of_body hs hk (List.getElem?_eq_getElem hlt)⟩
  · have hopen := History.isOpen calls (stage_define_of_compile hc)
    refine ⟨fun hid => ?_, fun hid => ?_⟩
    · have hbody := List.getElem?_eq_getElem (Nat.lt_of_add_lt_add_right hid)
      have hcommands := History.commandsOf_eq calls id
      rw [commandsOf, hbody] at hcommands
      rw [← hcommands]
      exact hopen.function_of_compile hc hf hbody hi hu
    · exact hopen.no_function hc hf (Nat.le_of_add_le_add_right hid)

/-- A later function without a body leaves the first one its own, and a refused call adds nothing. -/
theorem bodies_owned_besideBare :
    ∃ calls p b p₁ f, (History.of calls).program = p ∧ History.bare calls = 1 ∧
      compile p = .ok b p₁ ∧ p₁.registry.functions[0]? = some f ∧ f.isInline = false ∧
      f.isPinned = true ∧ 0 + History.bare calls < p.registry.functions.length ∧
      ∃ commands, b.functions.filter (·.name = f.name) = [⟨f.name, commands⟩] ∧
        [.fireEvent ⟨0, .tag⟩].mapM (Instruction.command p₁.registry) = .ok commands := by
  let calls : List Call := [
    .edit (.addFunction "main" false true), .edit (.define "done" (.tagEvent "done")),
    .direct (.addFunction "helper" false true), .direct (.addFunction "helper" false false),
    .edit (.pushBody 0 (.fireEvent ⟨0, .tag⟩)), .edit (.pushBody 1 (.fireEvent ⟨0, .tag⟩))]
  have hbare : History.bare calls = 1 := rfl
  obtain ⟨b, p₁, f, hc, hf, hi, hu⟩ : ∃ b p₁ f, compile (History.of calls).program = .ok b p₁ ∧
      p₁.registry.functions[0]? = some f ∧ f.isInline = false ∧ f.isPinned = true :=
    ⟨_, _, _, rfl, rfl, rfl, rfl⟩
  have hlt : 0 + History.bare calls < (History.of calls).program.registry.functions.length := by
    decide +kernel
  obtain ⟨-, hall⟩ := bodies_owned calls _ rfl
  have hcommands := ((hall 0).2 b p₁ f hc hf hi (.inr hu)).1 hlt
  exact ⟨calls, _, b, p₁, f, rfl, hbare, hc, hf, hi, hu, hlt, hcommands⟩

/-- After a function without a body, the next one has none either: its statements are refused, and it
is not written although it is pinned. -/
theorem bodyless_function_lost :
    ∃ (before : List Call) (id : FunctionId) (p p₁ : Program) (insn : Instruction) (e : Error)
      (b : Build) (f : Function),
      addFunction { name := "main", isPinned := true } (History.of before).program = .ok id p ∧
      p.registry.stage = .define ∧ insn.kind = .emitter ∧ pushBody id insn p = .error e p ∧
      compile p = .ok b p₁ ∧ p₁.registry.functions[id]? = some f ∧ f.name = "main" ∧
      f.isInline = false ∧ f.isPinned = true ∧ "main" ∉ b.functionNames := by
  let before : List Call :=
    [.direct (.addFunction "helper" false false), .edit (.define "done" (.tagEvent "done"))]
  exact ⟨before, _, _, _, .fireEvent ⟨0, .tag⟩, _, _, _, rfl, rfl, rfl, rfl, rfl, rfl, rfl, rfl, rfl,
    List.not_mem_nil⟩

end Program

end Datapack
