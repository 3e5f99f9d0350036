import Datapack.Proofs.Program.Reference

/-!
# The agenda of a compilation

A compilation comes to each preamble statement three times and to each command
of a written function once. All these visits in a row are the agenda of the
program, which is known before anything is compiled.

**Visits.** A visit is carried out on the registry alone, in the stage of its pass;
what the last passes yield is left aside (`readOff`).

**Result.** A compilation of an open program is refused exactly when the run through
its agenda is, with the same error and in the same state (`Open.compile_error_iff`).
-/
namespace Datapack

/-- The stage in which a pass takes place. -/
def Pass.stage : Pass → Stage
  | .construct => .define
  | .declare => .declare
  | .preapply => .apply
  | .postapply => .closed
  | .emission => .closed

namespace Program

open Step (after)

/-! ## Visits -/

/-- Reads a statement off the registry, whatever it yields. -/
def readOff {α : Type} (f : Registry → Instruction → Except Error α) (insn : Instruction) :
    Step Registry Unit := do
  let _ ← Step.ofExcept (f (← get) insn)
  return ()

theorem readOff_eq {α : Type} (f : Registry → Instruction → Except Error α) (insn : Instruction)
    (r : Registry) : readOff f insn r = Step.ofExcept ((f r insn).map fun _ => ()) r := by
  change (Step.ofExcept (f r insn) >>= fun _ => pure ()) r = _
  cases f r insn <;> rfl

/-- A pass comes to a statement. -/
structure Visit where
  pass : Pass
  insn : Instruction
  deriving DecidableEq

namespace Visit

/-- What the statement does in the pass, whatever it yields. -/
def act (v : Visit) : Step Registry Unit :=
  match v.pass with
  | .construct => do
    let _ ← v.insn.construct
    return ()
  | .declare => v.insn.declare
  | .preapply => v.insn.preapply
  | .postapply => readOff Instruction.postapply v.insn
  | .emission => readOff Instruction.command v.insn

/-- The visit takes place in the stage of its pass. -/
def perform (v : Visit) : Step Registry Unit := do
  Registry.enter v.pass.stage
  v.act

/-- The statement is of the kind that the pass comes to. Constructors are carried out at once, and
no pass comes to them. -/
def Fits (v : Visit) : Prop :=
  match v.pass with
  | .construct => False
  | .emission => v.insn.kind = .emitter
  | _ => v.insn.kind = .preamble

end Visit

/-- The visits of a pass. -/
def visits (pass : Pass) (l : List Instruction) : List Visit := l.map fun insn => ⟨pass, insn⟩

/-- The commands of the functions that are written. -/
def emitted (p : Program) : List Instruction :=
  (p.registry.functions.zip p.bodies).zipIdx.flatMap fun ((f, body), id) =>
    if p.isKept id f then body.commands else []

/-- The visits of a compilation: three passes over the preamble statements, those of the top level
before those of the functions, and then the commands. -/
def agenda (p : Program) : List Visit :=
  let preamble := p.top ++ p.bodies.flatMap (·.preamble)
  visits .declare preamble ++ (visits .preapply preamble ++
    (visits .postapply preamble ++ visits .emission p.emitted))

theorem Open.fits {p : Program} (hp : p.Open) : ∀ v ∈ p.agenda, v.Fits := by
  intro v hv
  simp only [agenda, visits, List.mem_append, List.mem_map] at hv
  rcases hv with ⟨insn, hi, rfl⟩ | ⟨insn, hi, rfl⟩ | ⟨insn, hi, rfl⟩ | ⟨insn, hi, rfl⟩
  · exact hp.kind_preamble (List.mem_append.mpr hi)
  · exact hp.kind_preamble (List.mem_append.mpr hi)
  · exact hp.kind_preamble (List.mem_append.mpr hi)
  · obtain ⟨⟨⟨f, body⟩, id⟩, hentry, hi⟩ := List.mem_flatMap.mp hi
    have hbody := (List.getElem?_zip_eq_some.mp (List.mem_zipIdx_iff_getElem?.mp hentry)).2
    by_cases hk : p.isKept id f
    · simp only [hk, if_true] at hi
      exact hp.commands body (List.mem_of_getElem? hbody) insn hi
    · simp [hk] at hi

/-! ## The compilation as a run -/

section
variable {pass : Pass} {act : Instruction → Step Registry Unit}
  (hact : ∀ insn, (⟨pass, insn⟩ : Visit).act = act insn)
  (hchange : ∀ insn (r : Registry), r.Change (after (act insn) r))
include hact hchange

/-- A pass is its visits one after the other, in its stage. -/
theorem forM_visits : ∀ (l : List Instruction) (r : Registry),
    ((visits pass l).forM Visit.perform >>= fun _ => Registry.enter pass.stage) r =
      l.forM act { r with stage := pass.stage }
  | [], _ => rfl
  | insn :: l, r => by
    change ((Visit.perform ⟨pass, insn⟩ >>= fun _ => (visits pass l).forM Visit.perform) >>=
      fun _ => Registry.enter pass.stage) r =
        (act insn >>= fun _ => l.forM act) { r with stage := pass.stage }
    have hperform : Visit.perform ⟨pass, insn⟩ r = act insn { r with stage := pass.stage } :=
      congrFun (hact insn) _
    rw [bind_assoc]
    cases ha : act insn { r with stage := pass.stage } with
    | error e r₁ => rw [Step.bind_of_error (hperform.trans ha), Step.bind_of_error ha]
    | ok u r₁ =>
      have hstage : r₁.stage = pass.stage := by
        have hc := hchange insn { r with stage := pass.stage }
        rw [Step.after_of_ok ha] at hc
        exact hc.stage_eq
      have hsame : { r₁ with stage := pass.stage } = r₁ := by rw [← hstage]
      rw [Step.bind_of_ok (hperform.trans ha), Step.bind_of_ok ha, forM_visits l r₁, hsame]

/-- The stage that a pass leaves does not show when what follows enters one of its own. -/
theorem visits_then {rest next : Step Registry Unit} {stage : Stage}
    (hrest : ∀ r, rest r = next { r with stage }) (l : List Instruction) (r : Registry) :
    ((visits pass l).forM Visit.perform >>= fun _ => rest) r =
      (do l.forM act; Registry.enter stage; next) { r with stage := pass.stage } := by
  have h := forM_visits hact hchange l r
  cases hv : (visits pass l).forM Visit.perform r with
  | error e r₁ =>
    rw [Step.bind_of_error hv] at h
    rw [Step.bind_of_error hv, Step.bind_of_error h.symm]
  | ok u r₁ =>
    rw [Step.bind_of_ok hv] at h
    rw [Step.bind_of_ok hv, Step.bind_of_ok h.symm]
    exact hrest r₁

end

theorem change_readOff {α : Type} (f : Registry → Instruction → Except Error α)
    (insn : Instruction) (r : Registry) : r.Change (after (readOff f insn) r) := by
  rw [Step.after_congr (readOff_eq f insn r), Step.after_ofExcept]
  exact .nothing

theorem forM_readOff {α : Type} (f : Registry → Instruction → Except Error α) (r : Registry) :
    ∀ l : List Instruction,
      l.forM (readOff f) r = Step.ofExcept ((l.mapM (f r)).map fun _ => ()) r
  | [] => rfl
  | insn :: l => by
    change (readOff f insn >>= fun _ => l.forM (readOff f)) r = _
    have hread := readOff_eq f insn r
    rw [List.mapM_cons]
    cases hf : f r insn with
    | error e =>
      rw [hf] at hread
      exact Step.bind_of_error hread
    | ok a =>
      rw [hf] at hread
      rw [Step.bind_of_ok hread, forM_readOff f r l]
      cases l.mapM (f r) <;> rfl

/-- Functions are compiled command by command. -/
theorem compileFunctions_eq (r : Registry) : ∀ l : List (Function × Body),
    (l.mapM fun entry => compileFunction r entry.1 entry.2).map (fun _ => ()) =
      ((l.flatMap fun entry => if entry.1.isEmitted then entry.2.commands else []).mapM
        (Instruction.command r)).map fun _ => ()
  | [] => rfl
  | (f, body) :: l => by
    have ih := compileFunctions_eq r l
    have hentry : compileFunction r f body =
        ((if f.isEmitted then body.commands else []).mapM (Instruction.command r)).map
          fun commands => if f.isEmitted then [⟨f.name, commands⟩] else [] := by
      unfold compileFunction
      cases f.isEmitted with
      | false => rfl
      | true =>
        simp only [if_true]
        cases body.commands.mapM (Instruction.command r) <;> rfl
    rw [List.mapM_cons, List.flatMap_cons, List.mapM_append, hentry]
    cases (if f.isEmitted then body.commands else []).mapM (Instruction.command r) with
    | error e => rfl
    | ok commands =>
      -- The rest is refused alike on both sides, or on neither.
      revert ih
      generalize l.mapM (fun entry => compileFunction r entry.1 entry.2) = x
      generalize (l.flatMap fun entry => if entry.1.isEmitted then entry.2.commands else []).mapM
        (Instruction.command r) = y
      intro ih
      cases x <;> cases y <;> cases ih <;> rfl

theorem Open.flatMap_closed {p : Program} (hp : p.Open) :
    (p.closed.functions.zip p.bodies).flatMap
      (fun entry => if entry.1.isEmitted then entry.2.commands else []) = p.emitted := by
  rw [hp.zip_closed, List.flatMap_map]
  simp only [isEmitted_settled, emitted]

/-- The passes of a compilation, as far as they concern the registry. -/
def passes (p : Program) : Step Registry Unit := do
  Registry.enter .declare
  p.preambleStatements.forM Instruction.declare
  Registry.enter .apply
  p.preambleStatements.forM Instruction.preapply
  Registry.enter .closed
  p.preambleStatements.forM (readOff Instruction.postapply)
  Registry.enter .closed
  p.emitted.forM (readOff Instruction.command)

/-- The agenda is what the passes do, up to the stage in which an empty agenda ends. -/
theorem agenda_run (p : Program) (r : Registry) :
    (p.agenda.forM Visit.perform >>= fun _ => Registry.enter .closed) r = p.passes r := by
  have append (l l' : List Visit) : (l ++ l').forM Visit.perform =
      (l.forM Visit.perform >>= fun _ => l'.forM Visit.perform) := List.forM_append
  have hdeclare (insn : Instruction) : (⟨.declare, insn⟩ : Visit).act = insn.declare := rfl
  have hpreapply (insn : Instruction) : (⟨.preapply, insn⟩ : Visit).act = insn.preapply := rfl
  have hpostapply (insn : Instruction) :
      (⟨.postapply, insn⟩ : Visit).act = readOff Instruction.postapply insn := rfl
  have hemission (insn : Instruction) :
      (⟨.emission, insn⟩ : Visit).act = readOff Instruction.command insn := rfl
  unfold agenda
  simp only [append, bind_assoc]
  exact visits_then hdeclare Registry.change_declare
    (visits_then hpreapply Registry.change_preapply
      (visits_then hpostapply (change_readOff _)
        (forM_visits hemission (change_readOff _) p.emitted)
        p.preambleStatements)
      p.preambleStatements)
    p.preambleStatements r

/-- The last two passes are what the output is read off in. -/
theorem Open.output_readOff {p : Program} (hp : p.Open) :
    (do
      p.preambleStatements.forM (readOff Instruction.postapply)
      Registry.enter .closed
      p.emitted.forM (readOff Instruction.command) : Step Registry Unit) p.closed =
      Step.ofExcept (({ p with registry := p.closed } : Program).output.map fun _ => ())
        p.closed := by
  have hregistrations := forM_readOff Instruction.postapply p.closed p.preambleStatements
  have hcommands := forM_readOff Instruction.command p.closed p.emitted
  rw [← hp.flatMap_closed, ← compileFunctions_eq] at hcommands
  have houtput : ({ p with registry := p.closed } : Program).output =
      (p.preambleStatements.mapM (Instruction.postapply p.closed) >>= fun registrations =>
        ((p.closed.functions.zip p.bodies).mapM fun entry =>
          compileFunction p.closed entry.1 entry.2) >>= fun functions =>
        pure ⟨functions.flatten, registrations.flatten⟩) := rfl
  rw [houtput]
  cases h₁ : p.preambleStatements.mapM (Instruction.postapply p.closed) with
  | error e =>
    rw [h₁] at hregistrations
    exact Step.bind_of_error hregistrations
  | ok registrations =>
    rw [h₁] at hregistrations
    rw [Step.bind_of_ok hregistrations]
    change (p.emitted.forM (readOff Instruction.command)) p.closed = _
    rw [← hp.flatMap_closed, hcommands]
    cases (p.closed.functions.zip p.bodies).mapM fun entry =>
      compileFunction p.closed entry.1 entry.2 <;> rfl

theorem Open.compile_passes {p : Program} (hp : p.Open) :
    match p.passes p.registry with
    | .error e r => compile p = .error e { p with registry := r }
    | .ok _ r => ∃ b, compile p = .ok b { p with registry := r } := by
  have enter (stage : Stage) (r : Registry) :
      Registry.enter stage r = .ok () { r with stage } := rfl
  rw [compile_eq hp.stage]
  unfold passes
  rw [Step.bind_of_ok (enter .declare p.registry)]
  cases h₁ : p.preambleStatements.forM Instruction.declare
      { p.registry with stage := .declare } with
  | error e r => rw [Step.bind_of_error h₁]
  | ok u r₁ =>
    rw [Step.bind_of_ok h₁, Step.bind_of_ok (enter .apply r₁)]
    simp only
    cases h₂ : p.preambleStatements.forM Instruction.preapply { r₁ with stage := .apply } with
    | error e r => rw [Step.bind_of_error h₂]
    | ok u r₂ =>
      rw [Step.bind_of_ok h₂, Step.bind_of_ok (enter .closed r₂)]
      have hclosed : { r₂ with stage := .closed } = p.closed := by
        obtain ⟨-, rfl⟩ := (Registry.declareAll_ok_iff rfl).mp h₁
        obtain ⟨-, rfl⟩ := (Registry.preapplyAll_ok_iff rfl).mp h₂
        rfl
      simp only [hclosed]
      rw [hp.output_readOff]
      cases ({ p with registry := p.closed } : Program).output with
      | error e => rfl
      | ok b => exact ⟨b, rfl⟩

/-- A compilation is refused exactly where the run through the agenda is. -/
theorem Open.compile_error_iff {p p' : Program} {e : Error} (hp : p.Open) :
    compile p = .error e p' ↔
      ∃ r, p.agenda.forM Visit.perform p.registry = .error e r ∧ p' = { p with registry := r } := by
  have hcompile := hp.compile_passes
  have hrun := agenda_run p p.registry
  cases ha : p.agenda.forM Visit.perform p.registry with
  | error e' r =>
    rw [Step.bind_of_error ha] at hrun
    rw [← hrun] at hcompile
    simp only at hcompile
    rw [hcompile]
    constructor
    · intro h
      cases h
      exact ⟨r, rfl, rfl⟩
    · rintro ⟨r', h, rfl⟩
      cases h
      rfl
  | ok u r =>
    rw [Step.bind_of_ok ha] at hrun
    rw [← hrun] at hcompile
    obtain ⟨b, hb⟩ := hcompile
    rw [hb]
    constructor
    · intro h; cases h
    · rintro ⟨r', h, -⟩; cases h

end Program

end Datapack
