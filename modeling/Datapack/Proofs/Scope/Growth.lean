import Datapack.Command
import Datapack.Proofs.Pack
import Datapack.Proofs.Step

/-!
# How scopes grow

A scope hands out names and takes none back. Variables, cells and tags are
only added, each at the end, and a sealed scope adds nothing but functions.

**Growth.** `Knows s s'` says that the tables of `s'` hold what those of `s`
hold, so that `s'` gives every answer that `s` gives (`Knows.objective`).
`Grows s s'` says more: `s'` is what `s` can become. `Widens s s'`: it becomes
so without declarations, since the variables gained are local to entities.

**Composed steps.** Commands are resolved by looking names up and by asking for
names, in some order (`Command.resolve_composed`). What is shown of these two is
thereby shown of commands.

**Lasting steps.** A step on scopes is `Lasting` when it only lets the scope
widen, gives the answer that it gave once again in every scope that has grown
since, without a change, and changes nothing in a sealed scope. Composed steps
are lasting (`Composed.lasting`), although they hand out names on their way.

**Calls.** `Call` lists what can be done to a scope. Every call lets the scope
grow unless it declares a variable again in another way (`Call.grows`).
-/
namespace Datapack

namespace Scope

open Step (after Keeps)

/-! ## Growth -/

theorem mem_foldl_insert {name : String} : ∀ (names known : List String),
    name ∈ names.foldl (fun known name => known.insert name) known ↔ name ∈ names ∨ name ∈ known
  | [], known => by simp
  | x :: names, known => by
    rw [List.foldl_cons, mem_foldl_insert names, List.mem_insert_iff, List.mem_cons]
    constructor
    · rintro (h | h | h)
      · exact .inl (.inr h)
      · exact .inl (.inl h)
      · exact .inr h
    · rintro ((h | h) | h)
      · exact .inr (.inl h)
      · exact .inl h
      · exact .inr (.inr h)

theorem mem_addFunctions {s : Scope} {names : List String} {name : String} :
    name ∈ (s.addFunctions names).functions ↔ name ∈ names ∨ name ∈ s.functions :=
  mem_foldl_insert names s.functions

structure Knows (s s' : Scope) : Prop where
  ns : s'.ns = s.ns
  entityTag : s'.entityTag = s.entityTag
  args : s'.args = s.args
  foreign : s'.foreign = s.foreign
  get? : ∀ {name entry}, s.vars.get? name = some entry → s'.vars.get? name = some entry
  cells : s.cells ⊆ s'.cells
  tags : s.tags ⊆ s'.tags
  functions : s.functions ⊆ s'.functions

namespace Knows

variable {s s' s'' : Scope}

theorem refl (s : Scope) : Knows s s :=
  ⟨rfl, rfl, rfl, rfl, id, List.Subset.refl _, List.Subset.refl _, List.Subset.refl _⟩

theorem trans (h : Knows s s') (h' : Knows s' s'') : Knows s s'' where
  ns := h'.ns.trans h.ns
  entityTag := h'.entityTag.trans h.entityTag
  args := h'.args.trans h.args
  foreign := h'.foreign.trans h.foreign
  get? he := h'.get? (h.get? he)
  cells := List.Subset.trans h.cells h'.cells
  tags := List.Subset.trans h.tags h'.tags
  functions := List.Subset.trans h.functions h'.functions

theorem objective (h : Knows s s') {name : String} {args : List String} {n : String}
    (hn : s.objective name args = .ok n) : s'.objective name args = .ok n := by
  unfold Scope.objective fullVariable at hn ⊢
  cases he : s.vars.get? name with
  | none => rw [he] at hn; cases hn
  | some entry =>
    rw [he] at hn
    have hq : s'.qualify = s.qualify := by funext text; unfold qualify; rw [h.ns]
    rw [h.get? he, hq]
    exact hn

theorem functionName (h : Knows s s') {name n : String} (hn : s.functionName name = .ok n) :
    s'.functionName name = .ok n := by
  unfold Scope.functionName hasFunction at hn ⊢
  split at hn
  · rename_i hf
    have hf' : s'.functions.contains name = true :=
      List.contains_iff_mem.mpr (h.functions (List.contains_iff_mem.mp hf))
    rw [if_pos hf', h.ns]
    exact hn
  · cases hn

theorem argument (h : Knows s s') {name n : String} (hn : s.argument name = .ok n) :
    s'.argument name = .ok n := by
  unfold Scope.argument at hn ⊢
  rw [h.args]
  exact hn

end Knows

structure Grows (s s' : Scope) : Prop where
  frame : s' = { s with
    vars := s'.vars, cells := s'.cells, tags := s'.tags, functions := s'.functions,
    isSealed := s'.isSealed }
  vars : s.vars.entries <+: s'.vars.entries
  cells : s.cells <+: s'.cells
  tags : s.tags <+: s'.tags
  functions : s.functions ⊆ s'.functions
  /-- A sealed scope stays as it is, functions apart. -/
  frozen : s.isSealed = true → s' = { s with functions := s'.functions }

namespace Grows

variable {s s' s'' : Scope}

theorem refl (s : Scope) : Grows s s :=
  ⟨rfl, List.prefix_rfl, List.prefix_rfl, List.prefix_rfl, List.Subset.refl _, fun _ => rfl⟩

theorem trans (h : Grows s s') (h' : Grows s' s'') : Grows s s'' where
  frame := by rw [h'.frame, h.frame]
  vars := h.vars.trans h'.vars
  cells := h.cells.trans h'.cells
  tags := h.tags.trans h'.tags
  functions := List.Subset.trans h.functions h'.functions
  frozen hs := by
    have hs' : s'.isSealed = true := by rw [h.frozen hs]; exact hs
    rw [h'.frozen hs', h.frozen hs]

theorem knows (h : Grows s s') : Knows s s' where
  ns := by rw [h.frame]
  entityTag := by rw [h.frame]
  args := by rw [h.frame]
  foreign := by rw [h.frame]
  get? := Assoc.get?_of_prefix h.vars
  cells := h.cells.subset
  tags := h.tags.subset
  functions := h.functions

theorem ns (h : Grows s s') : s'.ns = s.ns := h.knows.ns

theorem foreign (h : Grows s s') : s'.foreign = s.foreign := h.knows.foreign

theorem get? (h : Grows s s') {name : String} {entry : VariableEntry}
    (he : s.vars.get? name = some entry) : s'.vars.get? name = some entry :=
  h.knows.get? he

theorem objective (h : Grows s s') {name : String} {args : List String} {n : String}
    (hn : s.objective name args = .ok n) : s'.objective name args = .ok n :=
  h.knows.objective hn

end Grows

theorem grows_addFunctions (s : Scope) (names : List String) : Grows s (s.addFunctions names) where
  frame := rfl
  vars := List.prefix_rfl
  cells := List.prefix_rfl
  tags := List.prefix_rfl
  functions := fun _ h => mem_addFunctions.mpr (.inr h)
  frozen := fun _ => rfl

theorem grows_setSealed (s : Scope) : Grows s s.setSealed where
  frame := rfl
  vars := List.prefix_rfl
  cells := List.prefix_rfl
  tags := List.prefix_rfl
  functions := List.Subset.refl _
  frozen := fun hs => by unfold setSealed; rw [← hs]

/-- A new variable. -/
theorem grows_newVariable {s : Scope} (ho : s.isSealed = false) {name : String}
    (hn : s.vars.get? name = none) (entry : VariableEntry) :
    Grows s { s with vars := s.vars.insert name entry } where
  frame := rfl
  vars := by
    show s.vars.entries <+: Assoc.put name entry s.vars.entries
    rw [Assoc.put_of_none hn]
    exact List.prefix_append _ _
  cells := List.prefix_rfl
  tags := List.prefix_rfl
  functions := List.Subset.refl _
  frozen := fun hs => by rw [ho] at hs; cases hs

/-- The scope has grown, and each variable that it has gained is fixed under its own name. -/
structure Widens (s s' : Scope) : Prop extends Grows s s' where
  gained : ∀ {name entry}, s'.vars.get? name = some entry →
    s.vars.get? name = some entry ∨ entry = .fixed name

namespace Widens

theorem refl (s : Scope) : Widens s s := ⟨.refl s, .inl⟩

theorem trans {s s' s'' : Scope} (h : Widens s s') (h' : Widens s' s'') : Widens s s'' where
  toGrows := h.toGrows.trans h'.toGrows
  gained he := (h'.gained he).elim h.gained .inr

end Widens

theorem widens_addFunctions (s : Scope) (names : List String) : Widens s (s.addFunctions names) :=
  ⟨grows_addFunctions s names, .inl⟩

theorem widens_setSealed (s : Scope) : Widens s s.setSealed := ⟨grows_setSealed s, .inl⟩

/-! ## Lasting steps -/

structure Lasting {α : Type} (step : Step Scope α) : Prop where
  widens : ∀ s, Widens s (after step s)
  again : ∀ {s s₁ s₂ a}, step s = .ok a s₁ → Grows s₁ s₂ → step s₂ = .ok a s₂
  still : ∀ {s}, s.isSealed = true → after step s = s

namespace Lasting

variable {α β : Type}

theorem grows {step : Step Scope α} (h : Lasting step) (s : Scope) : Grows s (after step s) :=
  (h.widens s).toGrows

theorem grows_ok {step : Step Scope α} (h : Lasting step) {s s' : Scope} {a : α}
    (hs : step s = .ok a s') : Grows s s' :=
  Step.after_of_ok hs ▸ h.grows s

theorem still_ok {step : Step Scope α} (h : Lasting step) {s s' : Scope} {a : α}
    (ho : s.isSealed = true) (hs : step s = .ok a s') : s' = s :=
  (Step.after_of_ok hs).symm.trans (h.still ho)

theorem pure (a : α) : Lasting (Pure.pure a : Step Scope α) where
  widens := .refl
  again h _ := by cases h; rfl
  still _ := rfl

/-- Reading something off the tables. -/
theorem read {f : Scope → Except Error α}
    (hf : ∀ {s s' a}, f s = .ok a → Grows s s' → f s' = .ok a) :
    Lasting (do Step.ofExcept (f (← get))) := by
  have heq : ∀ s, (do Step.ofExcept (f (← get)) : Step Scope α) s = Step.ofExcept (f s) s :=
    fun _ => rfl
  have hstill : ∀ s, after (do Step.ofExcept (f (← get)) : Step Scope α) s = s := by
    intro s
    unfold after
    rw [heq]
    cases f s <;> rfl
  refine ⟨fun s => by rw [hstill]; exact .refl s, fun {s s₁ s₂ a} h hg => ?_, fun _ => hstill _⟩
  rw [heq] at h ⊢
  cases hr : f s with
  | error e => rw [hr] at h; cases h
  | ok b =>
    rw [hr] at h
    cases h
    rw [hf hr hg]
    rfl

theorem bind {x : Step Scope α} {f : α → Step Scope β} (hx : Lasting x)
    (hf : ∀ a, Lasting (f a)) : Lasting (x >>= f) where
  widens s :=
    Keeps.bind (I := Widens s) (fun t ht => ht.trans (hx.widens t))
      (fun a t ht => ht.trans ((hf a).widens t)) s (.refl s)
  again h hg := by
    obtain ⟨a, s₁, h₁, h₂⟩ := Step.bind_ok h
    have hagain := hx.again h₁ (((hf a).grows_ok h₂).trans hg)
    rw [Step.bind_of_ok hagain]
    exact (hf a).again h₂ hg
  still {s} hs :=
    Keeps.bind (I := (· = s)) (fun _ ht => by rw [ht]; exact hx.still hs)
      (fun a _ ht => by rw [ht]; exact (hf a).still hs) s rfl

end Lasting

/-! ## The names that a scope hands out

Cells, tags and names local to an entity have one shape: a name that is known is looked up, and one
that is not is made known first, unless the scope is sealed.
-/

structure Allocates (step : Step Scope String) (known : Scope → Bool)
    (answer : Scope → Except Error String) (what : Allocation) (extend : Scope → Scope) : Prop where
  eq : ∀ s, step s =
    if known s then Step.ofExcept (answer s) s
    else if s.isSealed then .error (sealedError what) s
    else Step.ofExcept (answer (extend s)) (extend s)
  known_extend : ∀ s, known (extend s) = true
  keeps : ∀ {s s'}, Knows s s' → known s = true → known s' = true
  answers : ∀ {s s' n}, Knows s s' → answer s = .ok n → answer s' = .ok n

namespace Allocates

variable {step : Step Scope String} {known : Scope → Bool} {answer : Scope → Except Error String}
  {what : Allocation} {extend : Scope → Scope} (h : Allocates step known answer what extend)
include h

theorem eq_known {s : Scope} (hk : known s = true) : step s = Step.ofExcept (answer s) s :=
  (h.eq s).trans (if_pos hk)

theorem eq_sealed {s : Scope} (hk : known s = false) (ho : s.isSealed = true) :
    step s = .error (sealedError what) s := by
  rw [h.eq, hk, ho]
  rfl

theorem eq_new {s : Scope} (hk : known s = false) (ho : s.isSealed = false) :
    step s = Step.ofExcept (answer (extend s)) (extend s) := by
  rw [h.eq, hk, ho]
  rfl

theorem after_known {s : Scope} (hk : known s = true) : after step s = s :=
  (Step.after_congr (h.eq_known hk)).trans (Step.after_ofExcept _ _)

theorem after_new {s : Scope} (hk : known s = false) (ho : s.isSealed = false) :
    after step s = extend s := by
  unfold after
  rw [h.eq_new hk ho]
  exact Step.after_ofExcept (answer (extend s)) (extend s)

/-- A name that was given out is known where it was given out. -/
theorem of_ok {s s₁ : Scope} {n : String} (hs : step s = .ok n s₁) :
    known s₁ = true ∧ answer s₁ = .ok n := by
  cases hk : known s with
  | true =>
    rw [h.eq_known hk] at hs
    obtain ⟨ha, rfl⟩ := Step.ofExcept_ok.mp hs
    exact ⟨hk, ha⟩
  | false =>
    cases ho : s.isSealed with
    | true => rw [h.eq_sealed hk ho] at hs; cases hs
    | false =>
      rw [h.eq_new hk ho] at hs
      obtain ⟨ha, rfl⟩ := Step.ofExcept_ok.mp hs
      exact ⟨h.known_extend s, ha⟩

theorem lasting
    (hwiden : ∀ s, s.isSealed = false → known s = false → Widens s (extend s)) :
    Lasting step where
  widens s := by
    cases hk : known s with
    | true => rw [h.after_known hk]; exact .refl s
    | false =>
      cases ho : s.isSealed with
      | true => rw [Step.after_of_error (h.eq_sealed hk ho)]; exact .refl s
      | false => rw [h.after_new hk ho]; exact hwiden s ho hk
  again {s s₁ s₂ n} hs hg := by
    obtain ⟨hk, ha⟩ := h.of_ok hs
    rw [h.eq_known (h.keeps hg.knows hk), h.answers hg.knows ha]
    rfl
  still {s} hs := by
    cases hk : known s with
    | true => exact h.after_known hk
    | false => exact Step.after_of_error (h.eq_sealed hk hs)

end Allocates

theorem memory_allocates (origin : UInt64) : Allocates (memory origin)
    (fun s => s.cells.contains origin) (fun s => .ok (trim (s.cellName origin))) .cell
    (fun s => { s with cells := s.cells ++ [origin] }) where
  eq _ := rfl
  known_extend s := List.contains_iff_mem.mpr (List.mem_append_right _ List.mem_cons_self)
  keeps hg hk := List.contains_iff_mem.mpr (hg.cells (List.contains_iff_mem.mp hk))
  answers hg hn := by
    rw [← hn]
    unfold cellName qualify
    rw [hg.ns]

theorem memory_lasting (origin : UInt64) : Lasting (memory origin) :=
  (memory_allocates origin).lasting fun _ ho _ =>
    ⟨⟨rfl, List.prefix_rfl, List.prefix_append _ _, List.prefix_rfl, List.Subset.refl _,
      fun hs => by rw [ho] at hs; cases hs⟩, .inl⟩

theorem tag_allocates (symbol : String) : Allocates (tag symbol)
    (fun s => s.tags.contains symbol) (fun s => .ok (s.tagName symbol)) .tag
    (fun s => { s with tags := s.tags ++ [symbol] }) where
  eq _ := rfl
  known_extend s := List.contains_iff_mem.mpr (List.mem_append_right _ List.mem_cons_self)
  keeps hg hk := List.contains_iff_mem.mpr (hg.tags (List.contains_iff_mem.mp hk))
  answers hg hn := by
    rw [← hn]
    unfold tagName qualify
    rw [hg.ns]

theorem tag_lasting (symbol : String) : Lasting (tag symbol) :=
  (tag_allocates symbol).lasting fun _ ho _ =>
    ⟨⟨rfl, List.prefix_rfl, List.prefix_rfl, List.prefix_append _ _, List.Subset.refl _,
      fun hs => by rw [ho] at hs; cases hs⟩, .inl⟩

/-- Declares a name local to an entity. -/
def declareLocal (name : String) (s : Scope) : Scope :=
  { s with vars := s.vars.insert (localName name) (.fixed (localName name)) }

theorem get?_declareLocal_eq (name key : String) (s : Scope) :
    (declareLocal name s).vars.get? key =
      if localName name = key then some (.fixed (localName name)) else s.vars.get? key :=
  Table.get?_insert _ _ _ _

theorem get?_declareLocal (name : String) (s : Scope) :
    (declareLocal name s).vars.get? (localName name) = some (.fixed (localName name)) :=
  (get?_declareLocal_eq name _ s).trans (if_pos rfl)

/-- The objective of a name local to an entity, once it is declared. -/
def localObjective (name : String) (s : Scope) : Except Error String :=
  if s.foreign.contains name then .ok name else s.objective (localName name) []

theorem addVariable_new {s : Scope} {name : String} (hn : s.vars.get? name = none)
    (entry : VariableEntry) :
    addVariable name entry s =
      if s.isSealed then .error (sealedError .newVariable) s
      else .ok () { s with vars := s.vars.insert name entry } := by
  unfold addVariable
  rw [hn]
  rfl

/-- The name local to an entity needs no declaration. -/
def isLocal (name : String) (s : Scope) : Bool :=
  s.foreign.contains name || (s.vars.get? (localName name)).isSome

theorem get?_of_isLocal {name : String} {s : Scope} (h : isLocal name s = false) :
    s.vars.get? (localName name) = none := by
  unfold isLocal at h
  rw [Bool.or_eq_false_iff] at h
  exact Option.isNone_iff_eq_none.mp (Option.isSome_eq_false_iff.mp h.2)

theorem entityLocal_eq (name : String) (s : Scope) :
    entityLocal name s =
      if isLocal name s then Step.ofExcept (localObjective name s) s
      else if s.isSealed then .error (sealedError .newVariable) s
      else Step.ofExcept (localObjective name (declareLocal name s)) (declareLocal name s) := by
  have hforeign : (declareLocal name s).foreign = s.foreign := rfl
  unfold isLocal localObjective entityLocal
  rw [hforeign, Step.get_bind]
  cases hf : s.foreign.contains name with
  | true => rfl
  | false =>
    simp only [Bool.false_or, Bool.false_eq_true, if_false]
    rw [Step.get_bind]
    cases hv : s.vars.get? (localName name) with
    | some entry => rfl
    | none =>
      simp only [Option.isNone_none, Option.isSome_none, if_true, Bool.false_eq_true, if_false]
      rw [Step.bind_eq, addVariable_new hv]
      by_cases ho : s.isSealed = true
      · rw [if_pos ho, if_pos ho]
      · rw [if_neg ho, if_neg ho]
        rfl

theorem entityLocal_allocates (name : String) : Allocates (entityLocal name)
    (isLocal name) (localObjective name) .newVariable (declareLocal name) where
  eq := entityLocal_eq name
  known_extend s := by
    unfold isLocal
    rw [get?_declareLocal, Option.isSome_some, Bool.or_true]
  keeps hg hk := by
    unfold isLocal at hk ⊢
    rw [Bool.or_eq_true] at hk ⊢
    rw [hg.foreign]
    refine hk.imp id fun h => ?_
    obtain ⟨entry, he⟩ := Option.isSome_iff_exists.mp h
    rw [hg.get? he, Option.isSome_some]
  answers hg hn := by
    unfold localObjective at hn ⊢
    rw [hg.foreign]
    split at hn
    · rename_i hf
      rw [if_pos hf, hn]
    · rename_i hf
      rw [if_neg hf]
      exact hg.objective hn

theorem gained_declareLocal {name key : String} {s : Scope} {entry : VariableEntry}
    (h : (declareLocal name s).vars.get? key = some entry) :
    s.vars.get? key = some entry ∨ entry = .fixed key := by
  rw [get?_declareLocal_eq] at h
  split at h
  · rename_i hname
    cases h
    exact .inr (hname ▸ rfl)
  · exact .inl h

theorem entityLocal_lasting (name : String) : Lasting (entityLocal name) :=
  (entityLocal_allocates name).lasting fun _ ho hk =>
    ⟨grows_newVariable ho (get?_of_isLocal hk) _, gained_declareLocal⟩

/-! ## Composed steps -/

inductive Composed : {α : Type} → Step Scope α → Prop where
  | pure {α : Type} (a : α) : Composed (Pure.pure a)
  | bind {α β : Type} {x : Step Scope α} {f : α → Step Scope β} (hx : Composed x)
    (hf : ∀ a, Composed (f a)) : Composed (x >>= f)
  | read {α : Type} {f : Scope → Except Error α}
    (hf : ∀ {s s' a}, f s = .ok a → Knows s s' → f s' = .ok a) :
    Composed (do Step.ofExcept (f (← get)))
  | memory (origin : UInt64) : Composed (memory origin)
  | tag (symbol : String) : Composed (tag symbol)
  | entityLocal (name : String) : Composed (entityLocal name)

namespace Composed

theorem mapM {α β : Type} {f : α → Step Scope β} (hf : ∀ a, Composed (f a)) :
    ∀ l : List α, Composed (l.mapM f)
  | [] => by rw [List.mapM_nil]; exact pure []
  | a :: l => by
    rw [List.mapM_cons]
    exact bind (hf a) fun b => bind (mapM hf l) fun bs => pure (b :: bs)

theorem lasting {α : Type} {step : Step Scope α} (h : Composed step) : Lasting step := by
  induction h with
  | pure a => exact .pure a
  | bind _ _ ihx ihf => exact .bind ihx ihf
  | read hf => exact .read fun h hg => hf h hg.knows
  | memory origin => exact memory_lasting origin
  | tag symbol => exact tag_lasting symbol
  | entityLocal name => exact entityLocal_lasting name

end Composed

theorem functionName_composed (name : String) :
    Composed (do Step.ofExcept ((← get).functionName name)) :=
  .read fun h hg => hg.functionName h

theorem functionName_lasting (name : String) :
    Lasting (do Step.ofExcept ((← get).functionName name)) :=
  (functionName_composed name).lasting

theorem commandArg_composed (kind value : String) : Composed (commandArg kind value) := by
  unfold commandArg
  refine .bind ?_ fun k => ?_
  · exact .read (f := fun _ => ArgKind.ofName kind) fun h _ => h
  · cases k with
    | tag => exact .tag value
    | arg => exact .read fun h hg => hg.argument h
    | entityLocal => exact .entityLocal value
    | func => exact functionName_composed (subroutineName value)

end Scope

/-! ## Commands -/

open Scope (Composed Lasting)

theorem Selector.text_knows {s s' : Scope} (h : s.Knows s') (selector : Selector) :
    selector.text s' = selector.text s := by
  cases selector with
  | plain kind => rfl
  | tagged kind tag limit => rfl
  | tracked => unfold text; rw [h.entityTag]

theorem Selector.text_grows {s s' : Scope} (h : s.Grows s') (selector : Selector) :
    selector.text s' = selector.text s :=
  selector.text_knows h.knows

theorem QualifiedName.resolve_knows {s s' : Scope} (h : s.Knows s') (q : QualifiedName) :
    q.resolve s' = q.resolve s := by
  unfold resolve target
  rw [h.ns]

theorem ScoreRef.objective_composed (target : ScoreRef) : Composed target.objective := by
  cases target with
  | var name args => exact .read fun h hg => hg.objective h
  | memory origin => exact .memory origin

theorem ScoreRef.objective_lasting (target : ScoreRef) : Lasting target.objective :=
  target.objective_composed.lasting

theorem CommandPart.resolve_composed (part : CommandPart) : Composed part.resolve := by
  cases part with
  | text content => exact .pure content
  | arg kind value => exact Scope.commandArg_composed kind value

namespace Command

/-- A text that the scope only lends its fixed names to. -/
theorem composed_text {f : Scope → String} (hf : ∀ {s s'}, s.Knows s' → f s' = f s) :
    Composed (do return f (← get) : Step Scope String) :=
  .read (f := fun s => .ok (f s)) fun h hg => by rw [hf hg]; exact h

theorem resolve_composed (c : Command) : Composed c.resolve := by
  cases c with
  | raw text => exact .pure text
  | call function =>
    have h : (Command.call function).resolve =
        ((do Step.ofExcept ((← get).functionName function)) >>= fun name =>
          Pure.pure ("function " ++ name)) := rfl
    rw [h]
    exact .bind (Scope.functionName_composed function) fun name => .pure ("function " ++ name)
  | callTag tag => exact composed_text fun hg => by rw [tag.resolve_knows hg]
  | revoke target advancement =>
    exact composed_text fun hg => by rw [target.text_knows hg, hg.ns]
  | setScore target value =>
    exact .bind target.objective_composed fun objective =>
      composed_text fun hg => by rw [Selector.tracked.text_knows hg]
  | dumpStack path target =>
    refine composed_text fun hg => ?_
    unfold dumpText
    rw [target.text_knows hg, Selector.tracked.text_knows hg]
  | templated parts =>
    exact .bind (.mapM CommandPart.resolve_composed parts) fun texts => .pure (String.join texts)

theorem resolve_lasting (c : Command) : Lasting c.resolve := c.resolve_composed.lasting

theorem resolveAll_lasting (commands : List Command) : Lasting (resolveAll commands) :=
  (Composed.mapM resolve_composed commands).lasting

end Command

/-! ## Calls -/

namespace Scope

open Step (after)

/-- What can be done to a scope. -/
inductive Call where
  | objective (name : String) (args : List String)
  | addVariable (name : String) (entry : VariableEntry)
  | entityLocal (name : String)
  | memory (origin : UInt64)
  | tag (symbol : String)
  | commandArg (kind value : String)
  | addFunctions (names : List String)
  | setSealed
  | resolve (command : Command)

namespace Call

/-- Carries a call out. The answer is the text that the call asks for, if it asks for one. -/
def perform : Call → Step Scope (Option String)
  | .objective name args => do return some (← Step.ofExcept ((← get).objective name args))
  | .addVariable name entry => do
    Scope.addVariable name entry
    return none
  | .entityLocal name => do return some (← Scope.entityLocal name)
  | .memory origin => do return some (← Scope.memory origin)
  | .tag symbol => do return some (← Scope.tag symbol)
  | .commandArg kind value => do return some (← Scope.commandArg kind value)
  | .addFunctions names => do
    modify (·.addFunctions names)
    return none
  | .setSealed => do
    modify Scope.setSealed
    return none
  | .resolve command => do return some (← command.resolve)

/-- The call asks for a name and does nothing else. -/
def isQuestion : Call → Bool
  | .addVariable .. | .addFunctions _ | .setSealed => false
  | _ => true

/-- The call gives a variable that is declared already another entry. A sealed scope refuses it. -/
def replaces (s : Scope) : Call → Bool
  | .addVariable name entry => !s.isSealed && (s.vars.get? name).any (· ≠ entry)
  | _ => false

end Call

theorem after_addVariable (name : String) (entry : VariableEntry) (s : Scope) :
    after (addVariable name entry) s =
      if s.vars.get? name = some entry ∨ s.isSealed = true then s
      else { s with vars := s.vars.insert name entry } := by
  by_cases hk : s.vars.get? name = some entry
  · have hs : addVariable name entry s = .ok () s := if_pos hk
    rw [Step.after_of_ok hs, if_pos (.inl hk)]
  · by_cases ho : s.isSealed = true
    · have hs : addVariable name entry s = .error _ s := (if_neg hk).trans (if_pos ho)
      rw [Step.after_of_error hs, if_pos (.inr ho)]
    · have hs : addVariable name entry s = .ok () _ := (if_neg hk).trans (if_neg ho)
      rw [Step.after_of_ok hs, if_neg fun h => h.elim hk ho]

theorem grows_addVariable {s : Scope} {name : String} {entry : VariableEntry}
    (h : (Call.addVariable name entry).replaces s = false) :
    Grows s (after (addVariable name entry) s) := by
  rw [after_addVariable]
  split
  · exact .refl s
  · rename_i hnew
    obtain ⟨hk, ho⟩ := not_or.mp hnew
    have hopen : s.isSealed = false := Bool.not_eq_true _ ▸ ho
    -- The variable is new: with another entry, the call would replace it.
    cases hv : s.vars.get? name with
    | none => exact grows_newVariable hopen hv entry
    | some known =>
      rw [Call.replaces, hopen, hv] at h
      have hsame : known = entry := by simpa using h
      exact absurd (hsame ▸ hv) hk

theorem Call.composed {c : Call} (h : c.isQuestion = true) : Composed c.perform := by
  have answered : ∀ {step : Step Scope String}, Composed step →
      Composed (do return some (← step)) :=
    fun hc => .bind hc fun a => .pure (some a)
  cases c with
  | objective name args =>
    have hread : Composed (do Step.ofExcept ((← get).objective name args)) :=
      .read fun hn hg => hg.objective hn
    exact answered hread
  | entityLocal name => exact answered (.entityLocal name)
  | memory origin => exact answered (.memory origin)
  | tag symbol => exact answered (.tag symbol)
  | commandArg kind value => exact answered (commandArg_composed kind value)
  | resolve command => exact answered command.resolve_composed
  | addVariable name entry => cases h
  | addFunctions names => cases h
  | setSealed => cases h

theorem Call.grows {s : Scope} {c : Call} (h : c.replaces s = false) :
    Grows s (after c.perform s) := by
  cases hq : c.isQuestion with
  | true => exact (Call.composed hq).lasting.grows s
  | false =>
    cases c with
    | addVariable name entry =>
      exact Step.after_returning (grows_addVariable h) fun _ _ => none
    | addFunctions names => exact grows_addFunctions s names
    | setSealed => exact grows_setSealed s
    | _ => cases hq

/-- No call changes the namespace, not even one that gives a variable another entry. -/
theorem Call.ns_after (c : Call) (s : Scope) : (after c.perform s).ns = s.ns := by
  cases hr : c.replaces s with
  | false => exact (Call.grows hr).ns
  | true =>
    cases c with
    | addVariable name entry =>
      refine Step.after_returning (P := fun t : Scope => t.ns = s.ns) ?_ fun _ _ => none
      rw [after_addVariable]
      split <;> rfl
    | _ => cases hr

/-- The scope after some calls, successful or refused. -/
def run (s : Scope) (calls : List Call) : Scope := calls.foldl (fun s c => after c.perform s) s

theorem run_ns (s : Scope) (calls : List Call) : (run s calls).ns = s.ns := by
  induction calls generalizing s with
  | nil => rfl
  | cons c calls ih => exact (ih _).trans (c.ns_after s)

/-- No call of the run gives a declared variable another entry. -/
def replacesNone : Scope → List Call → Bool
  | _, [] => true
  | s, c :: calls => !c.replaces s && replacesNone (after c.perform s) calls

theorem run_append (s : Scope) (calls calls' : List Call) :
    run s (calls ++ calls') = run (run s calls) calls' :=
  List.foldl_append

theorem replacesNone_append : ∀ (s : Scope) (calls calls' : List Call),
    replacesNone s (calls ++ calls') =
      (replacesNone s calls && replacesNone (run s calls) calls')
  | _, [], _ => rfl
  | s, c :: calls, calls' => by
    rw [List.cons_append, replacesNone, replacesNone, replacesNone_append, Bool.and_assoc]
    rfl

theorem run_grows : ∀ {s : Scope} {calls : List Call}, replacesNone s calls = true →
    Grows s (run s calls)
  | s, [], _ => .refl s
  | s, c :: calls, h => by
    rw [replacesNone, Bool.and_eq_true, Bool.not_eq_true'] at h
    exact (Call.grows h.1).trans (run_grows h.2)

end Scope

end Datapack
