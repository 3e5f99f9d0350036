import Datapack.Proofs.Value.Content

/-!
# Runs of a front end

A front end keeps a program and a pool of values. It adds values to the pool,
constructs and assigns them, and uses the program in between as it likes, up to
and after its compilation.

**Runs.** `Call` lists what a front end can do, `run` carries calls out, refused
ones included. One call changes the program, adds a value, or replaces the value
that it aims at (`Call.change`), and everything else here follows from that.

**Results.**
* `Call.sound`, `run_sound`: every value of the pool is sound, after any calls.
* `run_retains`: the program keeps what values refer to.
* `values_sound`: what the values of the pool stand for, now and later.
-/
namespace Datapack

open Step (after)

structure FrontEnd where
  program : Program := {}
  values : List Value := []

namespace FrontEnd

variable {α : Type}

/-! ## Steps -/

/-- A step on the program of a front end. -/
def onProgram (step : Step Program α) : Step FrontEnd α :=
  Step.onPart (·.program) (fun program s => { s with program }) step

def addValue (v : Value) : Step FrontEnd Unit :=
  modify fun s => { s with values := s.values ++ [v] }

/-- A step on the value at a place of the pool and on the program. Where no value is, nothing is
done. -/
def onValue (place : Nat) (step : Step Construction Unit) : Step FrontEnd Unit := fun s =>
  match s.values[place]? with
  | some v =>
    Step.onPart (fun s => ⟨s.program, v⟩)
      (fun c s => { program := c.program, values := s.values.set place c.target }) step s
  | none => .ok () s

/-- Adds a string whose text is a value of the program. -/
def dynamicString (index : Nat) : Step FrontEnd Unit := do
  let v ← Step.ofExcept (Value.dynamicString (← get).program index)
  addValue v

/-- Constructs a value of the pool from others. -/
def construct (target : Nat) (args : List Nat) : Step FrontEnd Unit := do
  let s ← get
  onValue target (Value.construct (args.filterMap (s.values[·]?)))

/-- Assigns one value of the pool to another. -/
def assign (target right : Nat) : Step FrontEnd Unit := do
  match (← get).values[right]? with
  | some w => onValue target (Construction.onTarget (Value.assign w))
  | none => return ()

/-- What a front end can do. Values of the pool are given by their places in it. -/
inductive Call where
  | program (call : Program.Call)
  | new (type : ValueType) (hint : String)
  | literal (text : String)
  | dynamicString (index : Nat)
  | construct (target : Nat) (args : List Nat)
  | assign (target right : Nat)

/-- The place of the value that the call may change. -/
def Call.target? : Call → Option Nat
  | .construct target _ => some target
  | .assign target _ => some target
  | _ => none

def Call.perform : Call → Step FrontEnd Unit
  | .program call => do
    let _ ← onProgram call.perform
    return ()
  | .new type hint => addValue (.new type hint)
  | .literal text => addValue (.literal text)
  | .dynamicString index => FrontEnd.dynamicString index
  | .construct target args => FrontEnd.construct target args
  | .assign target right => FrontEnd.assign target right

/-- The front end after some calls, successful or refused. -/
def run (s : FrontEnd) (calls : List Call) : FrontEnd :=
  calls.foldl (fun s c => after c.perform s) s

/-! ## One call -/

/-- Every value of the pool is sound. -/
def Sound (s : FrontEnd) : Prop := ∀ v ∈ s.values, v.Sound s.program

theorem Sound.args {s : FrontEnd} (h : s.Sound) (args : List Nat) :
    ∀ v ∈ args.filterMap (s.values[·]?), v.Sound s.program := by
  intro v hv
  obtain ⟨i, -, hi⟩ := List.mem_filterMap.mp hv
  exact h v (List.mem_of_getElem? hi)

/-- What one call can do to a front end. -/
inductive Change (s : FrontEnd) (c : Call) : FrontEnd → Prop where
  | program {p : Program} (retains : s.program.Retains p) : Change s c { s with program := p }
  | added {v : Value} (sound : v.Sound s.program) :
    Change s c { s with values := s.values ++ [v] }
  | replaced {p : Program} {target : Nat} {v : Value} (aim : c.target? = some target)
    (retains : s.program.Retains p) (sound : s.Sound → v.Sound p) :
    Change s c { program := p, values := s.values.set target v }

theorem Change.nothing (s : FrontEnd) (c : Call) : Change s c s := .program (.refl s.program)

theorem change_dynamicString (index : Nat) (s : FrontEnd) :
    Change s (.dynamicString index) (after (FrontEnd.dynamicString index) s) := by
  unfold FrontEnd.dynamicString after
  rw [Step.get_bind, Step.ofExcept_bind]
  cases hv : Value.dynamicString s.program index with
  | error e => exact .nothing s _
  | ok v => exact .added (.dynamicString hv)

section

variable {s : FrontEnd} {place : Nat} (step : Step Construction Unit)

theorem onValue_of_none (h : s.values[place]? = none) : onValue place step s = .ok () s := by
  unfold onValue
  rw [h]

theorem onValue_of_some {v : Value} (h : s.values[place]? = some v) :
    onValue place step s = Step.onPart (fun s => ⟨s.program, v⟩)
      (fun c s => { program := c.program, values := s.values.set place c.target }) step s := by
  unfold onValue
  rw [h]

/-- A step on a value that keeps the program and sound values replaces the value. -/
theorem change_onValue {c : Call} (haim : c.target? = some place)
    (h : ∀ v, s.values[place]? = some v →
      s.program.Retains (after step ⟨s.program, v⟩).program ∧
      (s.Sound → (after step ⟨s.program, v⟩).target.Sound (after step ⟨s.program, v⟩).program)) :
    Change s c (after (onValue place step) s) := by
  cases hv : s.values[place]? with
  | none =>
    rw [Step.after_of_ok (onValue_of_none step hv)]
    exact .nothing s c
  | some v =>
    obtain ⟨retains, sound⟩ := h v hv
    rw [Step.after_congr (onValue_of_some step hv), Step.after_onPart]
    exact .replaced haim retains sound

end

theorem change_construct (target : Nat) (args : List Nat) (s : FrontEnd) :
    Change s (.construct target args) (after (FrontEnd.construct target args) s) := by
  refine change_onValue (Value.construct (args.filterMap (s.values[·]?))) rfl fun v hv => ?_
  refine ⟨(Value.change_construct _ ⟨s.program, v⟩).retains, fun hs => ?_⟩
  exact (hs v (List.mem_of_getElem? hv)).construct (hs.args args)

theorem change_assign (target right : Nat) (s : FrontEnd) :
    Change s (.assign target right) (after (FrontEnd.assign target right) s) := by
  unfold FrontEnd.assign after
  rw [Step.get_bind]
  cases hr : s.values[right]? with
  | none => exact .nothing s _
  | some w =>
    refine change_onValue (Construction.onTarget (Value.assign w)) rfl fun v hv => ?_
    rw [Construction.onTarget, Step.after_onPart]
    refine ⟨.refl s.program, fun hs => ?_⟩
    exact (hs v (List.mem_of_getElem? hv)).assign (hs w (List.mem_of_getElem? hr))

theorem Call.change (c : Call) (s : FrontEnd) : Change s c (after c.perform s) := by
  cases c with
  | program call =>
    have retains := call.retains s.program
    refine Step.after_returning (P := Change s (.program call)) ?_ fun _ _ => ()
    rw [onProgram, Step.after_onPart]
    exact .program retains
  | new type hint => exact .added (.new type hint)
  | literal text => exact .added (.literal text)
  | dynamicString index => exact change_dynamicString index s
  | construct target args => exact change_construct target args s
  | assign target right => exact change_assign target right s

section

variable {s s' : FrontEnd} {c : Call}

theorem Change.retains (h : Change s c s') : s.program.Retains s'.program := by
  cases h with
  | program retains => exact retains
  | added sound => exact .refl s.program
  | replaced aim retains sound => exact retains

theorem Change.sound (h : Change s c s') (hs : s.Sound) : s'.Sound := by
  intro v hv
  cases h with
  | program retains => exact (hs v hv).retained retains
  | added sound =>
    rcases List.mem_append.mp hv with hold | hnew
    · exact hs v hold
    · rw [List.mem_singleton.mp hnew]
      exact sound
  | replaced aim retains sound =>
    rcases List.mem_or_eq_of_mem_set hv with hold | hnew
    · exact (hs v hold).retained retains
    · rw [hnew]
      exact sound hs

/-- A call leaves the values alone that it does not aim at. -/
theorem Change.getElem? (h : Change s c s') {i : Nat} (hi : c.target? ≠ some i) {v : Value}
    (hv : s.values[i]? = some v) : s'.values[i]? = some v := by
  cases h with
  | program retains => exact hv
  | added sound =>
    have hlt := (List.getElem?_eq_some_iff.mp hv).1
    exact (List.getElem?_append_left hlt).trans hv
  | replaced aim retains sound =>
    rename_i target w
    have hne : target ≠ i := fun heq => hi (heq ▸ aim)
    exact (List.getElem?_set_ne hne).trans hv

end

/-! ## Runs -/

theorem run_sound {s : FrontEnd} (calls : List Call) (h : s.Sound) : (run s calls).Sound := by
  induction calls generalizing s with
  | nil => exact h
  | cons c calls ih => exact ih ((c.change s).sound h)

theorem run_retains (s : FrontEnd) (calls : List Call) :
    s.program.Retains (run s calls).program := by
  induction calls generalizing s with
  | nil => exact .refl s.program
  | cons c calls ih => exact (c.change s).retains.trans (ih _)

theorem getElem?_run {s : FrontEnd} {calls : List Call} {i : Nat}
    (hi : ∀ c ∈ calls, c.target? ≠ some i) {v : Value} (hv : s.values[i]? = some v) :
    (run s calls).values[i]? = some v := by
  induction calls generalizing s with
  | nil => exact hv
  | cons c calls ih =>
    refine ih (fun d hd => hi d (List.mem_cons_of_mem c hd)) ?_
    exact (c.change s).getElem? (hi c List.mem_cons_self) hv

theorem sound_reached (calls : List Call) : (run {} calls).Sound :=
  run_sound calls fun v hv => by cases hv

/-! ## What values stand for -/

theorem Sound.operand {s : FrontEnd} (h : s.Sound) {v : Value} (hv : v ∈ s.values)
    (hb : v.isBound = true) :
    ∃ content o, v.content? = some content ∧ content.operand s.program = .ok o ∧
      Value.Suits s.program v.type o := by
  obtain ⟨content, hc⟩ := Option.isSome_iff_exists.mp hb
  obtain ⟨o, ho, hs⟩ := (h v hv).content content hc
  exact ⟨content, o, hc, ho, hs⟩

/-- At any time of any run, the holder of each value belongs to its type. A value that holds
something stands for an operand: a string for a text, a binding for an event of the program, of the
kind that its handle says. It goes on to do so, and to hold what it holds unless a later call aims
at it. A native value never holds anything, and nothing can be assigned to it. -/
theorem values_sound (before later : List Call) :
    (∀ v ∈ (run {} before).values,
      v.Matches ∧
      (v.isBound = true → ∃ o, v.operand (run {} before).program = .ok o ∧
        v.operand (run (run {} before) later).program = .ok o ∧
        (v.type = .string → ∃ text, o = .str text) ∧
        (v.type = .binding → ∃ handle event, o = .event handle ∧
          (run {} before).program.registry.events[handle.id]? = some event ∧
          event.kind = handle.kind)) ∧
      (∀ name slots, v.type = .native name slots →
        v.isBound = false ∧ v.operand (run {} before).program = v.unbound ∧
        ∀ right ∈ (run {} before).values, ∃ e, Value.assign right v = .error e v ∧
          Value.construct [right] ⟨(run {} before).program, v⟩ =
            .error e ⟨(run {} before).program, v⟩)) ∧
    ∀ i v, (run {} before).values[i]? = some v → (∀ c ∈ later, c.target? ≠ some i) →
      (run (run {} before) later).values[i]? = some v := by
  have hs := sound_reached before
  have hr := run_retains (run {} before) later
  refine ⟨fun v hv => ⟨(hs v hv).holder, fun hb => ?_, fun name slots ht => ?_⟩,
    fun i v hv hi => getElem?_run hi hv⟩
  · obtain ⟨content, o, hc, ho, hsuits⟩ := hs.operand hv hb
    refine ⟨o, (Value.operand_of_content hc _).trans ho,
      (Value.operand_of_content hc _).trans (StringContent.operand_retained hr ho), ?_, ?_⟩
    · intro ht
      rw [ht] at hsuits
      cases o with
      | str text => exact ⟨text, rfl⟩
      | _ => cases hsuits
    · intro ht
      rw [ht] at hsuits
      cases o with
      | event handle =>
        obtain ⟨event, he, hk⟩ := hsuits
        exact ⟨handle, event, rfl, he, hk⟩
      | _ => cases hsuits
  · have hempty := (hs v hv).native ht
    refine ⟨hempty, Value.operand_unbound hempty _, fun right hright => ?_⟩
    have hnot : ¬ (v.type = .binding ∧ right.type = .string) := by
      rintro ⟨hb, -⟩
      rw [ht] at hb
      cases hb
    cases ha : Value.assign right v with
    | ok u w => exact absurd ha ((hs right hright).assign_native ht)
    | error e w =>
      obtain rfl := Value.atomic_assign right _ _ _ ha
      refine ⟨e, rfl, ?_⟩
      rw [Value.construct_one hnot]
      exact Step.onPart_of_error ha

/-- A binding is constructed from a line and a string takes the line over; a native value takes
nothing. The binding stands for its event also after the string has changed and the program has been
compiled. -/
theorem values_sound_compiled :
    let before : List Call := [.new .binding "e", .literal "adv_event \"a\"", .new .string "s",
      .new (.native "score" 1) "n", .construct 0 [1], .assign 2 1, .assign 3 1]
    let later : List Call := [.literal "b", .assign 2 4, .program .compile]
    (run {} before).values.map Value.isBound = [true, true, true, false] ∧
    (run {} before).values[0]? = some (.bound "e" 0) ∧
    (run (run {} before) later).values[0]? = some (.bound "e" 0) ∧
    ∃ handle event,
      (Value.bound "e" 0).operand (run (run {} before) later).program = .ok (.event handle) ∧
      (run {} before).program.registry.events[handle.id]? = some event ∧
      event.kind = handle.kind := by
  intro before later
  have hfirst : (run {} before).values[0]? = some (.bound "e" 0) := by decide +kernel
  have h := values_sound before later
  obtain ⟨o, -, ho, -, hevent⟩ := (h.1 _ (List.mem_of_getElem? hfirst)).2.1 rfl
  obtain ⟨handle, event, rfl, he, hk⟩ := hevent rfl
  exact ⟨by decide +kernel, hfirst, h.2 0 _ hfirst (by decide), handle, event, ho, he, hk⟩

end FrontEnd

end Datapack
