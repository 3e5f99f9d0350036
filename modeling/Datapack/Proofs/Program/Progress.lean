import Datapack.Proofs.Program.History

/-!
# The progress of statements

A compilation visits a preamble statement three times, to declare it, to apply
it and to read it off, and a command once. A program is tracked when every
statement carries a mark of how far it has come, and the compilation checks at
each visit that it finds the mark that the visit before has left, and at each
stage that it comes from the stage before.

**Tracking.** `Tracked` is a program with its marks, and `Call.track` is what a
call does to it. A tracked call may end in a `Fault` that an untracked one does
not know: a mark or a stage was not the one expected.

**Following.** `Follows x y t Q` says that the tracked step `y` does to `t` what
`x` does to its program, with the same answer or the same refusal, and ends with
`Q` if it is not refused. Sequences follow sequences (`Follows.bind`), and a pass
over statements that all carry the mark it expects follows the pass without marks
(`pass_follows`, `reading_follows`).

**Result.** The checks never fail. The tracked program and the program go through
the same states (`Tracked.pace`), and every call on the one follows the call on
the other (`Call.follows`).
-/
namespace Datapack

/-- The stage that comes next. -/
def Stage.next? : Stage → Option Stage
  | .define => some .declare
  | .declare => some .apply
  | .apply => some .closed
  | .closed => none

namespace Program

open Step (after)

/-! ## Marks -/

inductive Progress where
  | pending
  | declared
  | applied
  | done
  deriving DecidableEq

/-- Where a statement stands. -/
inductive Place where
  | top (index : Nat)
  | preamble (function index : Nat)
  | command (function index : Nat)
  deriving DecidableEq

/-- There is a statement at the place. -/
def Place.isTaken (p : Program) : Place → Bool
  | .top index => index < p.top.length
  | .preamble function index => (p.bodies[function]?).any (index < ·.preamble.length)
  | .command function index => (p.bodies[function]?).any (index < ·.commands.length)

/-- Statements with their places. -/
def placed (place : Nat → Place) (l : List Instruction) : List (Place × Instruction) :=
  l.zipIdx.map fun (insn, index) => (place index, insn)

/-- The preamble statements with their places. -/
def placedPreamble (p : Program) : List (Place × Instruction) :=
  placed .top p.top ++
    p.bodies.zipIdx.flatMap fun (body, function) => placed (.preamble function) body.preamble

/-- Marks with those of some places set. -/
def marks (places : List Place) (after : Progress) (π : Place → Progress) (q : Place) : Progress :=
  if q ∈ places then after else π q

/-! ## Tracking -/

structure Tracked where
  program : Program := {}
  progress : Place → Progress := fun _ => .pending

inductive Fault where
  /-- The program refuses. -/
  | refused (e : Error)
  | outOfStep (place : Place) (found expected : Progress)
  | wrongTurn (current next : Stage)

/-- A step on a tracked program. -/
abbrev Track (α : Type) := EStateM Fault Tracked α

namespace Track

variable {α : Type}

/-- What a step leaves behind, stopped or not. -/
def after (y : Track α) (t : Tracked) : Tracked :=
  match y t with
  | .ok _ t' => t'
  | .error _ t' => t'

/-- A step on the program that leaves the marks alone. -/
def lift (x : Step Program α) : Track α := fun t =>
  match x t.program with
  | .ok a program => .ok a { t with program }
  | .error e program => .error (.refused e) { t with program }

/-- A step that comes to a statement and finds it as the visit before has left it. -/
def visit (place : Place) (before after : Progress) (x : Step Program α) : Track α := fun t =>
  if t.progress place = before then lift x { t with progress := marks [place] after t.progress }
  else .error (.outOfStep place (t.progress place) before) t

/-- Goes on to the next stage. -/
def enter (stage : Stage) : Track Unit := fun t =>
  if t.program.registry.stage.next? = some stage then lift (onRegistry (Registry.enter stage)) t
  else .error (.wrongTurn t.program.registry.stage stage) t

/-- A statement that an edit adds is pending. -/
def edit (e : Edit) : Track (Option Operand) := fun t =>
  match e.perform t.program with
  | .ok a program =>
    .ok a ⟨program, fun q => if q.isTaken t.program then t.progress q else .pending⟩
  | .error e program => .error (.refused e) { t with program }

def pass (before after : Progress) (act : Instruction → Step Registry Unit)
    (l : List (Place × Instruction)) : Track Unit :=
  l.forM fun (place, insn) => visit place before after (onRegistry (act insn))

def reading (before after : Progress) (read : Instruction → Except Error α)
    (l : List (Place × Instruction)) : Track (List α) :=
  l.mapM fun (place, insn) => visit place before after (Step.ofExcept (read insn))

def compileFunction (r : Registry) (f : Function) (body : Body) (id : FunctionId) :
    Track (List CompiledFunction) :=
  if f.isEmitted then do
    let statements := placed (.command id) body.commands
    let commands ← reading .pending .done (Instruction.command r) statements
    return [⟨f.name, commands⟩]
  else return []

def output : Track Build := do
  let p := (← get).program
  let registrations ← reading .applied .done (Instruction.postapply p.registry) p.placedPreamble
  let functions ← (p.registry.functions.zip p.bodies).zipIdx.mapM fun ((f, body), id) =>
    compileFunction p.registry f body id
  return ⟨functions.flatten, registrations.flatten⟩

def compile : Track Build := do
  let p := (← get).program
  if p.registry.stage ≠ .define then lift (Step.refuse (.untimely .alreadyCompiled))
  else
    enter .declare
    pass .pending .declared Instruction.declare p.placedPreamble
    enter .apply
    pass .declared .applied Instruction.preapply p.placedPreamble
    enter .closed
    output

end Track

def Call.track : Call → Track (Option Operand)
  | .edit e => Track.edit e
  | .compile => do
    let _ ← Track.compile
    return none
  | .direct d => Track.lift (onRegistry d.perform)

namespace Tracked

/-- One more call, successful or not. -/
def call (t : Tracked) (c : Call) : Tracked := c.track.after t

/-- What calls come to, from the empty program on. -/
def of (calls : List Call) : Tracked := calls.foldl call {}

end Tracked

/-! ## Places -/

theorem map_snd_placed (place : Nat → Place) (l : List Instruction) :
    (placed place l).map Prod.snd = l := by
  simp [placed, Function.comp_def]

theorem map_fst_placed (place : Nat → Place) (l : List Instruction) :
    (placed place l).map Prod.fst = (List.range' 0 l.length).map place := by
  rw [← List.zipIdx_map_snd, placed, List.map_map, List.map_map]
  rfl

theorem map_snd_placedPreamble (p : Program) :
    p.placedPreamble.map Prod.snd = p.preambleStatements := by
  have hbodies :
      p.bodies.zipIdx.flatMap (fun x => (placed (.preamble x.2) x.1.preamble).map Prod.snd) =
        (p.bodies.zipIdx.map Prod.fst).flatMap (·.preamble) := by
    simp only [map_snd_placed, List.flatMap_map]
  rw [placedPreamble, List.map_append, map_snd_placed, List.map_flatMap, hbodies,
    List.zipIdx_map_fst]
  rfl

theorem nodup_placed {place : Nat → Place} (hi : ∀ {i j}, place i = place j → i = j)
    (l : List Instruction) : ((placed place l).map Prod.fst).Nodup := by
  rw [map_fst_placed, List.Nodup, List.pairwise_map]
  exact List.Pairwise.imp (fun hne h => hne (hi h)) List.nodup_range'

theorem mem_placed {place : Nat → Place} {l : List Instruction} {q : Place}
    (h : q ∈ (placed place l).map Prod.fst) : ∃ i, q = place i := by
  rw [map_fst_placed] at h
  obtain ⟨i, -, rfl⟩ := List.mem_map.mp h
  exact ⟨i, rfl⟩

theorem nodup_placedPreamble (p : Program) : (p.placedPreamble.map Prod.fst).Nodup := by
  rw [placedPreamble, List.map_append, List.map_flatMap, List.nodup_append]
  refine ⟨nodup_placed (by simp) p.top, ?_, ?_⟩
  · rw [List.Nodup, List.pairwise_flatMap]
    refine ⟨fun x _ => nodup_placed (by simp) x.1.preamble, ?_⟩
    have hindex : (p.bodies.zipIdx.map Prod.snd).Nodup := by
      rw [List.zipIdx_map_snd]
      exact List.nodup_range'
    rw [List.Nodup, List.pairwise_map] at hindex
    refine hindex.imp fun hne q hq q' hq' he => ?_
    obtain ⟨i, rfl⟩ := mem_placed hq
    obtain ⟨j, rfl⟩ := mem_placed hq'
    exact hne (Place.preamble.inj he).1
  · intro q hq q' hq' he
    obtain ⟨i, rfl⟩ := mem_placed hq
    obtain ⟨x, -, hq'⟩ := List.mem_flatMap.mp hq'
    obtain ⟨j, rfl⟩ := mem_placed hq'
    cases he

theorem command_notMem_placedPreamble (p : Program) (function index : Nat) :
    .command function index ∉ p.placedPreamble.map Prod.fst := by
  intro h
  rw [placedPreamble, List.map_append, List.map_flatMap] at h
  rcases List.mem_append.mp h with h | h
  · obtain ⟨i, hi⟩ := mem_placed h
    cases hi
  · obtain ⟨x, -, h⟩ := List.mem_flatMap.mp h
    obtain ⟨i, hi⟩ := mem_placed h
    cases hi

/-! ## Following -/

def Follows {α : Type} (x : Step Program α) (y : Track α) (t : Tracked) (Q : Tracked → Prop) :
    Prop :=
  match x t.program with
  | .ok a p => ∃ t', y t = .ok a t' ∧ t'.program = p ∧ Q t'
  | .error e p => ∃ t', y t = .error (.refused e) t' ∧ t'.program = p

namespace Follows

variable {α β : Type} {x : Step Program α} {y : Track α} {t : Tracked} {Q R : Tracked → Prop}

theorem pure (a : α) (h : Q t) : Follows (Pure.pure a) (Pure.pure a) t Q := ⟨t, rfl, rfl, h⟩

theorem bind {f : α → Step Program β} {g : α → Track β} (h : Follows x y t Q)
    (hf : ∀ a t', x t.program = .ok a t'.program → Q t' → Follows (f a) (g a) t' R) :
    Follows (x >>= f) (y >>= g) t R := by
  unfold Follows at h ⊢
  cases hx : x t.program with
  | ok a p =>
    rw [hx] at h
    obtain ⟨t', hy, rfl, hq⟩ := h
    have hnext := hf a t' hx hq
    have hyg : (y >>= g) t = g a t' := by
      change EStateM.bind y g t = _
      unfold EStateM.bind
      rw [hy]
    rw [Step.bind_of_ok hx, hyg]
    exact hnext
  | error e p =>
    rw [hx] at h
    obtain ⟨t', hy, hp⟩ := h
    rw [Step.bind_of_error hx]
    refine ⟨t', ?_, hp⟩
    change EStateM.bind y g t = _
    unfold EStateM.bind
    rw [hy]

/-- Both sides look at the state first. -/
theorem get {f : Program → Step Program β} {g : Tracked → Track β}
    (h : Follows (f t.program) (g t) t R) :
    Follows (MonadState.get >>= f) (MonadState.get >>= g) t R := h

theorem lift (x : Step Program α) (t : Tracked) :
    Follows x (Track.lift x) t fun t' => t'.progress = t.progress := by
  unfold Follows Track.lift
  cases x t.program with
  | ok a p => exact ⟨_, rfl, rfl, rfl⟩
  | error e p => exact ⟨_, rfl, rfl⟩

theorem visit {place : Place} {before after : Progress} (h : t.progress place = before)
    (x : Step Program α) :
    Follows x (Track.visit place before after x) t fun t' =>
      t'.progress = marks [place] after t.progress := by
  have hlift := lift x { t with progress := marks [place] after t.progress }
  unfold Follows at hlift ⊢
  have hvisit : Track.visit place before after x t =
      Track.lift x { t with progress := marks [place] after t.progress } := if_pos h
  rw [hvisit]
  exact hlift

theorem enter {stage : Stage} (h : t.program.registry.stage.next? = some stage) :
    Follows (onRegistry (Registry.enter stage)) (Track.enter stage) t fun t' =>
      t'.progress = t.progress := by
  have hlift := lift (onRegistry (Registry.enter stage)) t
  unfold Follows at hlift ⊢
  have henter : Track.enter stage t = Track.lift (onRegistry (Registry.enter stage)) t := if_pos h
  rw [henter]
  exact hlift

end Follows

/-! ## Passes -/

theorem marks_nil (after : Progress) (π : Place → Progress) : marks [] after π = π := by
  funext q
  simp [marks]

theorem marks_cons (q : Place) (places : List Place) (after : Progress) (π : Place → Progress) :
    marks places after (marks [q] after π) = marks (q :: places) after π := by
  funext q'
  by_cases hq : q' = q <;> by_cases hp : q' ∈ places <;> simp [marks, hq, hp]

/-- After a visit, the statements that follow are as they were. -/
theorem marks_tail {before after : Progress} {s : Place × Instruction}
    {l : List (Place × Instruction)} {π : Place → Progress} (hn : ((s :: l).map Prod.fst).Nodup)
    (hl : ∀ s' ∈ s :: l, π s'.1 = before) : ∀ s' ∈ l, marks [s.1] after π s'.1 = before := by
  intro s' hs'
  have hne : s'.1 ≠ s.1 := by
    intro he
    rw [List.map_cons, List.nodup_cons] at hn
    exact hn.1 (he ▸ List.mem_map_of_mem hs')
  rw [marks, if_neg (by simpa using hne)]
  exact hl s' (List.mem_cons_of_mem s hs')

theorem onRegistry_bind {α β : Type} (x : Step Registry α) (f : α → Step Registry β) :
    onRegistry (x >>= f) = onRegistry x >>= fun a => onRegistry (f a) := by
  funext p
  cases hx : x p.registry with
  | ok a r =>
    rw [Step.bind_of_ok (onRegistry_of_ok hx)]
    unfold onRegistry Step.onPart
    rw [Step.bind_of_ok hx]
  | error e r =>
    rw [Step.bind_of_error (onRegistry_of_error hx)]
    exact onRegistry_of_error (Step.bind_of_error hx)

theorem pass_follows (before after : Progress) (act : Instruction → Step Registry Unit) :
    ∀ {l : List (Place × Instruction)} {t : Tracked}, (l.map Prod.fst).Nodup →
      (∀ s ∈ l, t.progress s.1 = before) →
      Follows (onRegistry ((l.map Prod.snd).forM act)) (Track.pass before after act l) t fun t' =>
        t'.progress = marks (l.map Prod.fst) after t.progress := by
  intro l
  induction l with
  | nil => exact fun {t} _ _ => ⟨t, rfl, rfl, (marks_nil after t.progress).symm⟩
  | cons s l ih =>
    intro t hn hl
    have hsteps : ((s :: l).map Prod.snd).forM act =
        (act s.2 >>= fun _ => (l.map Prod.snd).forM act) := rfl
    have hpass : Track.pass before after act (s :: l) =
        (Track.visit s.1 before after (onRegistry (act s.2)) >>= fun _ =>
          Track.pass before after act l) := rfl
    rw [hsteps, onRegistry_bind, hpass]
    refine .bind (.visit (hl s List.mem_cons_self) _) fun _ t₁ _ ht₁ => ?_
    have hrest := ih (t := t₁) (List.nodup_cons.mp hn).2 (by rw [ht₁]; exact marks_tail hn hl)
    rw [ht₁, marks_cons] at hrest
    exact hrest

theorem reading_follows {α : Type} (before after : Progress)
    (read : Instruction → Except Error α) :
    ∀ {l : List (Place × Instruction)} {t : Tracked}, (l.map Prod.fst).Nodup →
      (∀ s ∈ l, t.progress s.1 = before) →
      Follows (Step.ofExcept ((l.map Prod.snd).mapM read)) (Track.reading before after read l) t
        fun t' => t'.progress = marks (l.map Prod.fst) after t.progress := by
  intro l
  induction l with
  | nil => exact fun {t} _ _ => ⟨t, rfl, rfl, (marks_nil after t.progress).symm⟩
  | cons s l ih =>
    intro t hn hl
    rw [List.map_cons, List.mapM_cons, Step.ofExcept_bind_eq, Track.reading, List.mapM_cons]
    refine .bind (.visit (hl s List.mem_cons_self) _) fun a t₁ _ ht₁ => ?_
    have hrest := ih (t := t₁) (List.nodup_cons.mp hn).2 (by rw [ht₁]; exact marks_tail hn hl)
    rw [ht₁, marks_cons] at hrest
    rw [Step.ofExcept_bind_eq]
    exact .bind hrest fun as t₂ _ ht₂ => .pure (a :: as) ht₂

/-- A function is compiled from its own commands only. -/
theorem compileFunction_follows {t : Tracked} {r : Registry} {f : Function} {body : Body}
    {id : FunctionId} (h : ∀ i, t.progress (.command id i) = .pending) :
    Follows (Step.ofExcept (compileFunction r f body)) (Track.compileFunction r f body id) t
      fun t' => ∀ id' i, id' ≠ id → t'.progress (.command id' i) = t.progress (.command id' i) := by
  unfold compileFunction Track.compileFunction
  split
  · have hl : ∀ s ∈ placed (.command id) body.commands, t.progress s.1 = .pending := by
      intro s hs
      obtain ⟨i, hi⟩ := mem_placed (List.mem_map_of_mem hs)
      rw [hi]
      exact h i
    have hread := reading_follows .pending .done (Instruction.command r)
      (nodup_placed (by simp) body.commands) hl
    rw [map_snd_placed] at hread
    rw [Step.ofExcept_bind_eq]
    refine .bind hread fun commands t₁ _ ht₁ => .pure _ fun id' i hne => ?_
    rw [ht₁, marks, if_neg]
    intro hmem
    obtain ⟨j, hj⟩ := mem_placed hmem
    exact hne (Place.command.inj hj).1
  · exact .pure _ fun _ _ _ => rfl

theorem compileFunctions_follow (r : Registry) : ∀ {l : List ((Function × Body) × FunctionId)}
    {t : Tracked}, (l.map Prod.snd).Nodup →
      (∀ x ∈ l, ∀ i, t.progress (.command x.2 i) = .pending) →
      Follows (Step.ofExcept ((l.map Prod.fst).mapM fun x => compileFunction r x.1 x.2))
        (l.mapM fun x => Track.compileFunction r x.1.1 x.1.2 x.2) t fun _ => True := by
  intro l
  induction l with
  | nil => exact fun {t} _ _ => ⟨t, rfl, rfl, trivial⟩
  | cons x l ih =>
    intro t hn hl
    rw [List.map_cons, List.nodup_cons] at hn
    rw [List.map_cons, List.mapM_cons, Step.ofExcept_bind_eq, List.mapM_cons]
    refine .bind (compileFunction_follows (hl x List.mem_cons_self)) fun a t₁ _ ht₁ => ?_
    have hrest := ih (t := t₁) hn.2 fun x' hx' i => by
      rw [ht₁ x'.2 i fun he => hn.1 (he ▸ List.mem_map_of_mem hx')]
      exact hl x' (List.mem_cons_of_mem x hx') i
    rw [Step.ofExcept_bind_eq]
    exact .bind hrest fun as t₂ _ _ => .pure (a :: as) trivial

theorem output_follows {t : Tracked}
    (hs : ∀ s ∈ t.program.placedPreamble, t.progress s.1 = .applied)
    (hc : ∀ id i, t.progress (.command id i) = .pending) :
    Follows (Step.ofExcept t.program.output) Track.output t fun _ => True := by
  have hread := reading_follows .applied .done (Instruction.postapply t.program.registry)
    (nodup_placedPreamble t.program) hs
  rw [map_snd_placedPreamble] at hread
  unfold output
  rw [Step.ofExcept_bind_eq]
  refine .bind hread fun registrations t₁ _ ht₁ => ?_
  have hc₁ : ∀ id i, t₁.progress (.command id i) = .pending := by
    intro id i
    rw [ht₁, marks, if_neg (command_notMem_placedPreamble t.program id i)]
    exact hc id i
  have hfunctions := compileFunctions_follow t.program.registry (t := t₁)
    (l := (t.program.registry.functions.zip t.program.bodies).zipIdx)
    (by rw [List.zipIdx_map_snd]; exact List.nodup_range') fun x _ i => hc₁ x.2 i
  rw [List.zipIdx_map_fst] at hfunctions
  rw [Step.ofExcept_bind_eq]
  exact .bind hfunctions fun functions t₂ _ _ => .pure _ trivial

/-! ## Compilation -/

/-- A pass stays in its stage. -/
theorem pass_ok {act : Instruction → Step Registry Unit}
    (hact : ∀ insn (r : Registry), r.Change (after (act insn) r)) {l : List Instruction}
    {p p' : Program} (h : onRegistry (l.forM act) p = .ok () p') :
    ∃ r, p' = { p with registry := r } ∧ r.stage = p.registry.stage := by
  obtain ⟨r, hr, rfl⟩ := onRegistry_ok h
  refine ⟨r, rfl, ?_⟩
  exact (keeps_pass (I := fun r => r.stage = p.registry.stage)
    (fun r r' hc hs => hc.stage_eq.trans hs) hact l).of_ok hr rfl

theorem marks_of_mem {l : List (Place × Instruction)} {after : Progress} {π : Place → Progress} :
    ∀ s ∈ l, marks (l.map Prod.fst) after π s.1 = after :=
  fun _ hs => if_pos (List.mem_map_of_mem hs)

/-- Before the compilation, nothing has been visited. -/
def Tracked.Unvisited (t : Tracked) : Prop :=
  t.program.registry.stage = .define → ∀ q, t.progress q = .pending

theorem compile_follows {t : Tracked} (h : t.Unvisited) :
    Follows compile Track.compile t fun _ => True := by
  unfold compile Track.compile
  refine .get ?_
  by_cases hs : t.program.registry.stage = .define
  · rw [if_neg fun hne => hne hs, if_neg fun hne => hne hs]
    have hn := nodup_placedPreamble t.program
    have hsteps := map_snd_placedPreamble t.program
    -- Each stage is entered from the one before, and each pass finds the marks of the pass before.
    refine .bind (.enter (by rw [hs]; rfl)) fun _ t₁ hx₁ ht₁ => ?_
    obtain ⟨r₁, hr₁, hp₁⟩ := onRegistry_ok hx₁
    cases hr₁
    have hpass₁ := pass_follows .pending .declared Instruction.declare (t := t₁) hn
      fun s _ => (congrFun ht₁ s.1).trans (h hs s.1)
    rw [hsteps] at hpass₁
    refine .bind hpass₁ fun _ t₂ hx₂ ht₂ => ?_
    obtain ⟨r₂, hp₂, hs₂⟩ := pass_ok Registry.change_declare hx₂
    refine .bind (.enter (by rw [hp₂]; simp only [hs₂, hp₁]; rfl)) fun _ t₃ hx₃ ht₃ => ?_
    obtain ⟨r₃, hr₃, hp₃⟩ := onRegistry_ok hx₃
    cases hr₃
    have hpass₃ := pass_follows .declared .applied Instruction.preapply (t := t₃) hn
      (by rw [ht₃, ht₂]; exact marks_of_mem)
    rw [hsteps] at hpass₃
    refine .bind hpass₃ fun _ t₄ hx₄ ht₄ => ?_
    obtain ⟨r₄, hp₄, hs₄⟩ := pass_ok Registry.change_preapply hx₄
    refine .bind (.enter (by rw [hp₄]; simp only [hs₄, hp₃]; rfl)) fun _ t₅ hx₅ ht₅ => ?_
    obtain ⟨r₅, hr₅, hp₅⟩ := onRegistry_ok hx₅
    cases hr₅
    have hprogram : t₅.program = { t.program with registry := t₅.program.registry } := by
      rw [hp₅, hp₄, hp₃, hp₂, hp₁]
    have hplaces : t₅.program.placedPreamble = t.program.placedPreamble := by rw [hprogram]; rfl
    refine .get (output_follows ?_ ?_)
    · rw [hplaces, ht₅, ht₄]
      exact marks_of_mem
    · intro id i
      have hmem := command_notMem_placedPreamble t.program id i
      rw [ht₅, ht₄, marks, if_neg hmem, ht₃, ht₂, marks, if_neg hmem, ht₁]
      exact h hs _
  · rw [if_pos hs, if_pos hs]
    exact ⟨t, rfl, rfl⟩

/-! ## Calls -/

theorem Call.follows (c : Call) {t : Tracked} (h : t.Unvisited) :
    Follows c.perform c.track t fun _ => True := by
  cases c with
  | edit e =>
    show Follows e.perform (Track.edit e) t _
    unfold Follows Track.edit
    cases e.perform t.program with
    | ok a p => exact ⟨_, rfl, rfl, trivial⟩
    | error e p => exact ⟨_, rfl, rfl⟩
  | compile => exact .bind (compile_follows h) fun _ _ _ _ => .pure none trivial
  | direct d =>
    show Follows (onRegistry d.perform) (Track.lift (onRegistry d.perform)) t _
    unfold Follows Track.lift
    cases onRegistry d.perform t.program with
    | ok a p => exact ⟨_, rfl, rfl, trivial⟩
    | error e p => exact ⟨_, rfl, rfl⟩

namespace Tracked

variable {t : Tracked}

theorem program_call (h : t.Unvisited) (c : Call) :
    (t.call c).program = after c.perform t.program := by
  have hf := c.follows h
  unfold Follows at hf
  unfold call Track.after after
  cases hc : c.perform t.program with
  | ok a p =>
    rw [hc] at hf
    obtain ⟨t', ht, rfl, -⟩ := hf
    rw [ht]
  | error e p =>
    rw [hc] at hf
    obtain ⟨t', ht, rfl⟩ := hf
    rw [ht]

/-- Only a compilation visits statements. -/
theorem progress_call {c : Call} (hc : c ≠ .compile) (h : ∀ q, t.progress q = .pending) :
    ∀ q, (t.call c).progress q = .pending := by
  intro q
  cases c with
  | edit e =>
    show (Track.after (Track.edit e) t).progress q = _
    unfold Track.after Track.edit
    cases e.perform t.program with
    | ok a p => simp [h]
    | error e p => exact h q
  | compile => exact absurd rfl hc
  | direct d =>
    show (Track.after (Track.lift (onRegistry d.perform)) t).progress q = _
    unfold Track.after Track.lift
    cases onRegistry d.perform t.program <;> exact h q

theorem unvisited_call (h : t.Unvisited) (c : Call) : (t.call c).Unvisited := by
  intro hs
  rw [program_call h] at hs
  obtain ⟨hd, hc⟩ := Call.stage_define hs
  exact progress_call hc (h hd)

/-- The tracked program and the program keep pace, and before the compilation nothing is visited. -/
theorem pace (calls : List Call) :
    (of calls).Unvisited ∧ (of calls).program = (History.of calls).program := by
  have run : ∀ (l : List Call) (t : Tracked) (s : History), t.Unvisited → t.program = s.program →
      (l.foldl call t).Unvisited ∧ (l.foldl call t).program = (l.foldl History.call s).program := by
    intro l
    induction l with
    | nil => exact fun t s ht hp => ⟨ht, hp⟩
    | cons c l ih =>
      intro t s ht hp
      refine ih (t.call c) (s.call c) (unvisited_call ht c) ?_
      rw [program_call ht, History.program_call, hp]
  exact run calls {} {} (fun _ _ => rfl) rfl

end Tracked

end Program

end Datapack
