import Datapack.Proofs.Instruction.Assembly

/-!
# The check of operands

A name with operands becomes an instruction when the catalogue has the name and
the operands are as many as its parameters and fit them one by one. Three
tables have to agree for this: the parameters of an opcode, the operands that a
type of parameter takes, and the operands that an instruction is assembled from.

**Fitting.** `Fits` says which operands a parameter takes, and `Accepts` which
lists of operands an opcode takes. An opcode assembles an instruction from
exactly what it accepts (`assemble?_isSome_iff`), and anything else has a first
fault that the check reports (`check_cases`, `check_eq_none_iff`).

**Verdicts.** `Verdict` lists the ways in which a name with operands can end, in
the order of their precedence (`ofOperands_iff`), and `Reading` those of a text
with arguments (`read_iff`).

**Reading by position.** `staged` checks first and then takes each operand from
its place in the list, where it might find nothing or an operand of another
sort (`Misread`). After the check it never does (`staged_eq`).
-/
namespace Datapack

/-! ## Fitting -/

namespace ParamType

/-- The operands that a parameter takes. -/
inductive Fits : ParamType → Operand → Prop where
  | text (content : String) : Fits .text (.str content)
  | event (handle : EventHandle) : Fits .event (.event handle)
  | advancementEvent (id : Nat) : Fits .advancementEvent (.event ⟨id, .advancement⟩)
  | tagEvent (id : Nat) : Fits .tagEvent (.event ⟨id, .tag⟩)
  | function (id : FunctionId) : Fits .function (.func id)
  | visibleFunction (id : FunctionId) : Fits .visibleFunction (.func id)

/-- What is wrong with an operand that does not fit: an event may be of the wrong kind, anything
else is of the wrong sort. -/
def complaint (op : Opcode) : ParamType → Operand → Cause
  | .advancementEvent, .event handle =>
    .wrongEventKind op (numbered handle.id) .advancement handle.kind
  | .tagEvent, .event handle => .wrongEventKind op (numbered handle.id) .tag handle.kind
  | type, operand => .typeMismatch type.describe operand.describe

variable {op : Opcode} {type : ParamType} {operand : Operand}

theorem misfit?_of_fits (h : type.Fits operand) : type.misfit? op operand = none := by
  cases h <;> rfl

theorem misfit?_of_not_fits (h : ¬ type.Fits operand) :
    type.misfit? op operand = some (type.complaint op operand) := by
  cases type with
  | text =>
    cases operand with
    | str content => exact absurd (.text content) h
    | _ => rfl
  | event =>
    cases operand with
    | event handle => exact absurd (.event handle) h
    | _ => rfl
  | advancementEvent =>
    cases operand with
    | event handle =>
      obtain ⟨id, kind⟩ := handle
      cases kind with
      | advancement => exact absurd (.advancementEvent id) h
      | tag => rfl
    | _ => rfl
  | tagEvent =>
    cases operand with
    | event handle =>
      obtain ⟨id, kind⟩ := handle
      cases kind with
      | advancement => rfl
      | tag => exact absurd (.tagEvent id) h
    | _ => rfl
  | function =>
    cases operand with
    | func id => exact absurd (.function id) h
    | _ => rfl
  | visibleFunction =>
    cases operand with
    | func id => exact absurd (.visibleFunction id) h
    | _ => rfl

theorem misfit?_eq_none_iff : type.misfit? op operand = none ↔ type.Fits operand := by
  constructor
  · intro h
    refine Classical.byContradiction fun hn => ?_
    rw [misfit?_of_not_fits hn] at h
    cases h
  · exact misfit?_of_fits

theorem not_fits_of_misfit? {c : Cause} (h : type.misfit? op operand = some c) :
    ¬ type.Fits operand := by
  intro hf
  rw [misfit?_of_fits hf] at h
  cases h

end ParamType

/-- Operands fit parameters one by one. -/
def FitAll : List Param → List Operand → Prop
  | [], [] => True
  | p :: ps, o :: os => p.type.Fits o ∧ FitAll ps os
  | _, _ => False

theorem fitAll_iff : ∀ {ps : List Param} {os : List Operand}, FitAll ps os ↔
    os.length = ps.length ∧
      ∀ (k : Nat) p o, ps[k]? = some p → os[k]? = some o → p.type.Fits o
  | [], [] => by simp [FitAll]
  | [], _ :: _ => by simp [FitAll]
  | _ :: _, [] => by simp [FitAll]
  | p :: ps, o :: os => by
    simp only [FitAll, fitAll_iff, List.length_cons, Nat.add_right_cancel_iff]
    constructor
    · rintro ⟨hfit, hlength, hrest⟩
      refine ⟨hlength, fun k p' o' hp ho => ?_⟩
      cases k with
      | zero => cases hp; cases ho; exact hfit
      | succ k => exact hrest k p' o' hp ho
    · rintro ⟨hlength, hall⟩
      exact ⟨hall 0 p o rfl rfl, hlength, fun k p' o' hp ho => hall (k + 1) p' o' hp ho⟩

theorem fitAll_nil {os : List Operand} (h : FitAll [] os) : os = [] := by
  cases os with
  | nil => rfl
  | cons o os => exact h.elim

theorem fitAll_cons {p : Param} {ps : List Param} {os : List Operand} (h : FitAll (p :: ps) os) :
    ∃ o rest, os = o :: rest ∧ p.type.Fits o ∧ FitAll ps rest := by
  cases os with
  | nil => exact h.elim
  | cons o rest => exact ⟨o, rest, rfl, h⟩

namespace Opcode

variable {op : Opcode} {operands : List Operand}

/-- There are as many operands as parameters, and each fits its parameter. -/
structure Accepts (op : Opcode) (operands : List Operand) : Prop where
  length : operands.length = op.params.length
  fits : ∀ (k : Nat) p o, op.params[k]? = some p → operands[k]? = some o → p.type.Fits o

theorem accepts_iff : op.Accepts operands ↔ FitAll op.params operands := by
  rw [fitAll_iff]
  exact ⟨fun h => ⟨h.length, h.fits⟩, fun h => ⟨h.1, h.2⟩⟩

theorem mem_all (op : Opcode) : op ∈ all := by
  cases op <;> decide

theorem ofName?_eq_none_iff {name : String} :
    ofName? name = none ↔ ∀ op : Opcode, op.name ≠ name := by
  unfold ofName?
  rw [List.find?_eq_none]
  constructor
  · intro h op hop
    exact h op op.mem_all (decide_eq_true hop)
  · intro h op _ hop
    exact h op (of_decide_eq_true hop)

/-- No two instructions share a name. -/
theorem name_inj {op op' : Opcode} (h : op.name = op'.name) : op = op' := by
  have hop := ofName?_name op
  rw [h, ofName?_name] at hop
  exact (Option.some.inj hop).symm

/-! ## Assembling -/

/-- The operands of an instruction are accepted by its opcode. -/
theorem accepts_operands {insn : Instruction} (h : insn.Checked) :
    insn.opcode.Accepts insn.operands := by
  rw [accepts_iff]
  cases insn with
  | advEvent name => exact ⟨.text name, trivial⟩
  | tagEvent name => exact ⟨.text name, trivial⟩
  | addEventCondition event path value =>
    obtain ⟨id, kind⟩ := event
    obtain rfl : kind = .advancement := h
    exact ⟨.advancementEvent id, .text path, .text value, trivial⟩
  | eventHandler handler event => exact ⟨.function handler, .event event, trivial⟩
  | fireEvent event =>
    obtain ⟨id, kind⟩ := event
    obtain rfl : kind = .tag := h
    exact ⟨.tagEvent id, trivial⟩
  | revokeEventAdv handler => exact ⟨.function handler, trivial⟩
  | setupFn function => exact ⟨.visibleFunction function, trivial⟩

/-- Operands that an opcode accepts are those of an instruction. -/
theorem exists_of_accepts (h : op.Accepts operands) :
    ∃ insn : Instruction, insn.opcode = op ∧ insn.operands = operands ∧ insn.Checked := by
  rw [accepts_iff] at h
  -- One operand for each parameter, and nothing behind the last.
  cases op with
  | advEvent =>
    obtain ⟨o, rest, rfl, hfit, h⟩ := fitAll_cons h
    obtain rfl := fitAll_nil h
    cases hfit with
    | text name => exact ⟨.advEvent name, rfl, rfl, trivial⟩
  | tagEvent =>
    obtain ⟨o, rest, rfl, hfit, h⟩ := fitAll_cons h
    obtain rfl := fitAll_nil h
    cases hfit with
    | text name => exact ⟨.tagEvent name, rfl, rfl, trivial⟩
  | addEventCondition =>
    obtain ⟨o₁, rest, rfl, hevent, h⟩ := fitAll_cons h
    obtain ⟨o₂, rest, rfl, hpath, h⟩ := fitAll_cons h
    obtain ⟨o₃, rest, rfl, hvalue, h⟩ := fitAll_cons h
    obtain rfl := fitAll_nil h
    cases hevent with
    | advancementEvent id =>
      cases hpath with
      | text path =>
        cases hvalue with
        | text value => exact ⟨.addEventCondition ⟨id, .advancement⟩ path value, rfl, rfl, rfl⟩
  | eventHandler =>
    obtain ⟨o₁, rest, rfl, hhandler, h⟩ := fitAll_cons h
    obtain ⟨o₂, rest, rfl, hevent, h⟩ := fitAll_cons h
    obtain rfl := fitAll_nil h
    cases hhandler with
    | function handler =>
      cases hevent with
      | event event => exact ⟨.eventHandler handler event, rfl, rfl, trivial⟩
  | fireEvent =>
    obtain ⟨o, rest, rfl, hfit, h⟩ := fitAll_cons h
    obtain rfl := fitAll_nil h
    cases hfit with
    | tagEvent id => exact ⟨.fireEvent ⟨id, .tag⟩, rfl, rfl, rfl⟩
  | revokeEventAdv =>
    obtain ⟨o, rest, rfl, hfit, h⟩ := fitAll_cons h
    obtain rfl := fitAll_nil h
    cases hfit with
    | function handler => exact ⟨.revokeEventAdv handler, rfl, rfl, trivial⟩
  | setupFn =>
    obtain ⟨o, rest, rfl, hfit, h⟩ := fitAll_cons h
    obtain rfl := fitAll_nil h
    cases hfit with
    | visibleFunction function => exact ⟨.setupFn function, rfl, rfl, trivial⟩

theorem assemble?_eq_some {insn : Instruction} (h : op.assemble? operands = some insn) :
    insn.opcode = op ∧ insn.operands = operands := by
  unfold assemble? at h
  split at h <;> cases h <;> exact ⟨rfl, rfl⟩

/-- An instruction is assembled from exactly the operands that its opcode accepts. -/
theorem assemble?_isSome_iff :
    (∃ insn, op.assemble? operands = some insn) ↔ op.Accepts operands := by
  constructor
  · rintro ⟨insn, h⟩
    obtain ⟨rfl, rfl⟩ := assemble?_eq_some h
    exact accepts_operands (Instruction.checked_of_assemble h)
  · intro h
    obtain ⟨insn, rfl, rfl, hc⟩ := exists_of_accepts h
    exact ⟨insn, Instruction.assemble_operands hc⟩

theorem assemble?_eq_none_iff : op.assemble? operands = none ↔ ¬ op.Accepts operands := by
  rw [← assemble?_isSome_iff, ← Option.isSome_iff_exists, Option.not_isSome_iff_eq_none]

end Opcode

/-! ## Faults -/

/-- The operand at `k` does not fit its parameter, and those before it do. -/
structure Leftmost (params : List Param) (operands : List Operand) (k : Nat) (param : Param)
    (operand : Operand) : Prop where
  at_param : params[k]? = some param
  at_operand : operands[k]? = some operand
  misfit : ¬ param.type.Fits operand
  before : ∀ j < k, ∀ p o, params[j]? = some p → operands[j]? = some o → p.type.Fits o

namespace Opcode

variable {op : Opcode} {operands : List Operand}

/-- What the check says of operands: their number, else the leftmost that does not fit. -/
def check (op : Opcode) (operands : List Operand) : Option Cause :=
  if operands.length ≠ op.params.length then
    some (.arityMismatch op.name (.exactly op.params.length) operands.length)
  else (op.params.zip operands).findSome? fun (p, operand) => p.type.misfit? op operand

theorem check_arity (h : operands.length ≠ op.params.length) :
    op.check operands =
      some (.arityMismatch op.name (.exactly op.params.length) operands.length) := if_pos h

/-- A pair of a list of pairs by its place. -/
theorem getElem?_zip_split {params : List Param} {l₁ l₂ : List (Param × Operand)}
    {x : Param × Operand} (h : params.zip operands = l₁ ++ x :: l₂) :
    params[l₁.length]? = some x.1 ∧ operands[l₁.length]? = some x.2 := by
  rw [← List.getElem?_zip_eq_some, h]
  simp

theorem check_misfit (hlength : operands.length = op.params.length) {k : Nat} {param : Param}
    {operand : Operand} (h : Leftmost op.params operands k param operand) :
    op.check operands = some (param.type.complaint op operand) := by
  have hzip : (op.params.zip operands)[k]? = some (param, operand) :=
    List.getElem?_zip_eq_some.mpr ⟨h.at_param, h.at_operand⟩
  obtain ⟨hk, hget⟩ := List.getElem?_eq_some_iff.mp hzip
  rw [check, if_neg (fun hn => hn hlength), List.findSome?_eq_some_iff]
  refine ⟨(op.params.zip operands).take k, (param, operand), (op.params.zip operands).drop (k + 1),
    ?_, ParamType.misfit?_of_not_fits h.misfit, ?_⟩
  · rw [← hget, List.getElem_cons_drop, List.take_append_drop]
  · rintro ⟨p, o⟩ hx
    obtain ⟨j, hj⟩ := List.mem_iff_getElem?.mp hx
    rw [List.getElem?_take] at hj
    split at hj
    · rename_i hlt
      obtain ⟨hp, ho⟩ := List.getElem?_zip_eq_some.mp hj
      exact ParamType.misfit?_of_fits (h.before j hlt p o hp ho)
    · cases hj

/-- Operands are accepted, or their number is wrong, or there is a leftmost that does not fit. -/
theorem check_cases (op : Opcode) (operands : List Operand) :
    op.Accepts operands ∨
    operands.length ≠ op.params.length ∨
    operands.length = op.params.length ∧
      ∃ k param operand, Leftmost op.params operands k param operand := by
  by_cases hlength : operands.length = op.params.length
  · cases hc : (op.params.zip operands).findSome? fun (p, operand) => p.type.misfit? op operand with
    | none =>
      refine .inl ⟨hlength, fun k p o hp ho => ?_⟩
      have hzip : (op.params.zip operands)[k]? = some (p, o) :=
        List.getElem?_zip_eq_some.mpr ⟨hp, ho⟩
      exact ParamType.misfit?_eq_none_iff.mp
        (List.findSome?_eq_none_iff.mp hc (p, o) (List.mem_of_getElem? hzip))
    | some c =>
      obtain ⟨l₁, ⟨param, operand⟩, l₂, hsplit, hmisfit, hbefore⟩ :=
        List.findSome?_eq_some_iff.mp hc
      obtain ⟨hparam, hoperand⟩ := getElem?_zip_split hsplit
      refine .inr (.inr ⟨hlength, l₁.length, param, operand, hparam, hoperand,
        ParamType.not_fits_of_misfit? hmisfit, fun j hj p o hp ho => ?_⟩)
      have hj' : l₁[j]? = some (p, o) := by
        rw [← List.getElem?_append_left hj, ← hsplit]
        exact List.getElem?_zip_eq_some.mpr ⟨hp, ho⟩
      exact ParamType.misfit?_eq_none_iff.mp (hbefore (p, o) (List.mem_of_getElem? hj'))
  · exact .inr (.inl hlength)

/-- The check passes exactly what the opcode accepts. -/
theorem check_eq_none_iff : op.check operands = none ↔ op.Accepts operands := by
  constructor
  · intro h
    rcases op.check_cases operands with haccepts | hcount | ⟨hcount, k, param, operand, hleft⟩
    · exact haccepts
    · rw [check_arity hcount] at h
      cases h
    · rw [check_misfit hcount hleft] at h
      cases h
  · intro h
    rw [check, if_neg (fun hn => hn h.length), List.findSome?_eq_none_iff]
    rintro ⟨p, o⟩ hx
    obtain ⟨k, hk⟩ := List.mem_iff_getElem?.mp hx
    obtain ⟨hp, ho⟩ := List.getElem?_zip_eq_some.mp hk
    exact ParamType.misfit?_of_fits (h.fits k p o hp ho)

theorem not_accepts_of_check {c : Cause} (h : op.check operands = some c) :
    ¬ op.Accepts operands := by
  intro ha
  rw [check_eq_none_iff.mpr ha] at h
  cases h

/-- The fault that is reported is what the check says. -/
theorem fault_of_check {c : Cause} (h : op.check operands = some c) : op.fault operands = c := by
  unfold check at h
  unfold fault
  simp only
  split
  · rename_i hlength
    rw [if_pos hlength] at h
    exact Option.some.inj h
  · rename_i hlength
    rw [if_neg hlength] at h
    rw [h, Option.getD_some]

end Opcode

/-! ## Verdicts -/

namespace Instruction

variable {name : String} {op : Opcode} {operands : List Operand}

/-- How a name with operands ends. -/
inductive Verdict (name : String) (operands : List Operand) : Except Error Instruction → Prop where
  | unknown (unnamed : ∀ op : Opcode, op.name ≠ name) :
    Verdict name operands (.error ⟨.notFound .instruction name, none⟩)
  | arity {op : Opcode} (named : op.name = name) (count : operands.length ≠ op.params.length) :
    Verdict name operands
      (.error ⟨.arityMismatch name (.exactly op.params.length) operands.length, some op⟩)
  | misfit {op : Opcode} {k : Nat} {param : Param} {operand : Operand} (named : op.name = name)
    (count : operands.length = op.params.length)
    (leftmost : Leftmost op.params operands k param operand) :
    Verdict name operands (.error ⟨param.type.complaint op operand, some op⟩)
  | built {op : Opcode} {insn : Instruction} (named : op.name = name)
    (accepts : op.Accepts operands) (same_name : insn.name = name)
    (same_operands : insn.operands = operands) : Verdict name operands (.ok insn)

/-- An instruction is known by its name and operands. -/
theorem eq_of_operands {insn insn' : Instruction} (hop : insn.opcode = insn'.opcode)
    (hoperands : insn.operands = insn'.operands) : insn = insn' := by
  cases insn <;> cases insn' <;> simp_all [opcode, operands]

theorem ofOperands_unnamed (h : ∀ op : Opcode, op.name ≠ name) :
    ofOperands name operands = .error ⟨.notFound .instruction name, none⟩ := by
  unfold ofOperands
  rw [Opcode.ofName?_eq_none_iff.mpr h]
  rfl

theorem ofOperands_accepted (h : op.Accepts operands) :
    ∃ insn, ofOperands op.name operands = .ok insn ∧ insn.opcode = op ∧
      insn.operands = operands := by
  obtain ⟨insn, hinsn⟩ := Opcode.assemble?_isSome_iff.mpr h
  refine ⟨insn, ?_, Opcode.assemble?_eq_some hinsn⟩
  unfold ofOperands
  simp only [Opcode.ofName?_name, hinsn]

theorem ofOperands_faulty {c : Cause} (h : op.check operands = some c) :
    ofOperands op.name operands = .error ⟨c, some op⟩ := by
  have hnone := Opcode.assemble?_eq_none_iff.mpr (Opcode.not_accepts_of_check h)
  unfold ofOperands
  simp only [Opcode.ofName?_name, hnone, Opcode.fault_of_check h]
  rfl

theorem ofOperands_iff {result : Except Error Instruction} :
    ofOperands name operands = result ↔ Verdict name operands result := by
  constructor
  · rintro rfl
    by_cases hnamed : ∃ op : Opcode, op.name = name
    · obtain ⟨op, rfl⟩ := hnamed
      rcases op.check_cases operands with haccepts | hcount | ⟨hcount, k, param, operand, hleft⟩
      · obtain ⟨insn, hok, hop, hoperands⟩ := ofOperands_accepted haccepts
        rw [hok]
        exact .built rfl haccepts (by rw [Instruction.name, hop]) hoperands
      · rw [ofOperands_faulty (Opcode.check_arity hcount)]
        exact .arity rfl hcount
      · rw [ofOperands_faulty (Opcode.check_misfit hcount hleft)]
        exact .misfit rfl hcount hleft
    · have hunnamed : ∀ op : Opcode, op.name ≠ name := fun op hop => hnamed ⟨op, hop⟩
      rw [ofOperands_unnamed hunnamed]
      exact .unknown hunnamed
  · intro h
    cases h with
    | unknown hunnamed => exact ofOperands_unnamed hunnamed
    | arity hnamed hcount =>
      subst hnamed
      exact ofOperands_faulty (Opcode.check_arity hcount)
    | misfit hnamed hcount hleft =>
      subst hnamed
      exact ofOperands_faulty (Opcode.check_misfit hcount hleft)
    | built hnamed haccepts hname hoperands =>
      subst hnamed
      obtain ⟨insn, hok, hop, hoperands'⟩ := ofOperands_accepted haccepts
      rw [hok, eq_of_operands (Opcode.name_inj hname |>.trans hop.symm)
        (hoperands.trans hoperands'.symm)]

theorem ofOperands_isOk_iff :
    (∃ insn, ofOperands name operands = .ok insn) ↔
      ∃ op : Opcode, op.name = name ∧ op.Accepts operands := by
  constructor
  · rintro ⟨insn, h⟩
    cases ofOperands_iff.mp h with
    | built hnamed haccepts => exact ⟨_, hnamed, haccepts⟩
  · rintro ⟨op, rfl, haccepts⟩
    obtain ⟨insn, hok, -⟩ := ofOperands_accepted haccepts
    exact ⟨insn, hok⟩

/-! ## Reading by position -/

/-- What can go wrong when an operand is taken from its place, or a name has no reader. -/
inductive Misread where
  | pastEnd (place : Nat)
  | wrongSort (place : Nat)
  | noReader (name : String)

/-- The operand at a place, if it is of the sort that is read. -/
def readAt {α : Type} (sort : Operand → Option α) (operands : List Operand) (place : Nat) :
    Except Misread α :=
  match operands[place]? with
  | none => .error (.pastEnd place)
  | some operand =>
    match sort operand with
    | none => .error (.wrongSort place)
    | some a => .ok a

def textAt : List Operand → Nat → Except Misread String :=
  readAt fun
    | .str text => some text
    | _ => none

def eventAt : List Operand → Nat → Except Misread EventHandle :=
  readAt fun
    | .event handle => some handle
    | _ => none

def functionAt : List Operand → Nat → Except Misread FunctionId :=
  readAt fun
    | .func id => some id
    | _ => none

/-- Reads an instruction by its name, each operand from its place, without looking at their number
or kinds. -/
def readNamed (operands : List Operand) : String → Except Misread Instruction
  | "adv_event" => return .advEvent (← textAt operands 0)
  | "tag_event" => return .tagEvent (← textAt operands 0)
  | "add_event_condition" =>
    return .addEventCondition (← eventAt operands 0) (← textAt operands 1) (← textAt operands 2)
  | "event_handler" => return .eventHandler (← functionAt operands 0) (← eventAt operands 1)
  | "fire_event" => return .fireEvent (← eventAt operands 0)
  | "revoke_event_adv" => return .revokeEventAdv (← functionAt operands 0)
  | "setupfn" => return .setupFn (← functionAt operands 0)
  | name => .error (.noReader name)

/-- Looks the name up, checks the operands, and only then reads them by position. -/
def staged (name : String) (operands : List Operand) : Except (Error ⊕ Misread) Instruction :=
  match Opcode.ofName? name with
  | none => .error (.inl (Cause.notFound .instruction name).error)
  | some op =>
    match op.check operands with
    | some c => .error (.inl (c.error.within op))
    | none => (readNamed operands op.name).mapError .inr

/-- An instruction is read back from its own operands. -/
theorem readNamed_operands (insn : Instruction) : readNamed insn.operands insn.name = .ok insn := by
  cases insn <;> rfl

/-- The staged reading is the same, and nothing is misread after the check. -/
theorem staged_eq (name : String) (operands : List Operand) :
    staged name operands = (ofOperands name operands).mapError .inl := by
  unfold staged
  by_cases hnamed : ∃ op : Opcode, op.name = name
  · obtain ⟨op, rfl⟩ := hnamed
    cases hcheck : op.check operands with
    | some c =>
      rw [ofOperands_faulty hcheck]
      simp only [Opcode.ofName?_name, hcheck]
      rfl
    | none =>
      obtain ⟨insn, hok, rfl, rfl⟩ := ofOperands_accepted (Opcode.check_eq_none_iff.mp hcheck)
      rw [hok]
      simp only [Opcode.ofName?_name, hcheck]
      exact congrArg (Except.mapError Sum.inr) insn.readNamed_operands
  · have hunnamed : ∀ op : Opcode, op.name ≠ name := fun op hop => hnamed ⟨op, hop⟩
    rw [ofOperands_unnamed hunnamed, Opcode.ofName?_eq_none_iff.mpr hunnamed]
    rfl

/-! ## Lines -/

/-- The operand that a term stands for, if there is one. -/
def denoted? (arguments : List Operand) : Term → Option Operand
  | .text content => some (.str content)
  | .ref index => arguments[index]?

/-- How a text with arguments ends. -/
inductive Reading (text : String) (arguments : List Operand) :
    Except Error Instruction → Prop where
  | unreadable {rest : String} (unread : Line.parse text = .error ⟨.unreadable text rest, none⟩) :
    Reading text arguments (.error ⟨.unreadable text rest, none⟩)
  | missing {line : Line} {before after : List Term} {index : Nat}
    (parsed : Line.parse text = .ok line) (terms : line.terms = before ++ .ref index :: after)
    (known : ∀ i, .ref i ∈ before → i < arguments.length) (beyond : arguments.length ≤ index) :
    Reading text arguments (.error ⟨.missingArgument ("$" ++ toString index), none⟩)
  | resolved {line : Line} {operands : List Operand} {result : Except Error Instruction}
    (parsed : Line.parse text = .ok line)
    (terms : line.terms.map (denoted? arguments) = operands.map some)
    (verdict : Verdict line.name operands result) : Reading text arguments result

variable {arguments : List Operand}

theorem parse_unreadable {text : String} {e : Error} (h : Line.parse text = .error e) :
    ∃ rest, e = ⟨.unreadable text rest, none⟩ := by
  unfold Line.parse at h
  split at h
  · cases h
  · cases h
    exact ⟨_, rfl⟩

theorem resolve_of_denoted {term : Term} {operand : Operand}
    (h : denoted? arguments term = some operand) : term.resolve arguments = .ok operand := by
  cases term with
  | text content => cases h; rfl
  | ref index =>
    unfold denoted? at h
    unfold Term.resolve
    simp only [h]

theorem resolve_of_beyond {index : Nat} (h : arguments.length ≤ index) :
    (Term.ref index).resolve arguments =
      .error ⟨.missingArgument ("$" ++ toString index), none⟩ := by
  unfold Term.resolve
  simp only [List.getElem?_eq_none h]
  rfl

/-- A term stands for an operand unless it refers beyond the arguments. -/
theorem denoted_cases (arguments : List Operand) (term : Term) :
    (∃ operand, denoted? arguments term = some operand) ∨
      ∃ index, term = .ref index ∧ arguments.length ≤ index := by
  cases term with
  | text content => exact .inl ⟨_, rfl⟩
  | ref index =>
    rcases Nat.lt_or_ge index arguments.length with hlt | hge
    · exact .inl ⟨arguments[index], List.getElem?_eq_getElem hlt⟩
    · exact .inr ⟨index, rfl, hge⟩

theorem mapM_resolve : ∀ {terms : List Term} {operands : List Operand},
    terms.map (denoted? arguments) = operands.map some →
      terms.mapM (Term.resolve arguments) = .ok operands
  | [], [], _ => rfl
  | [], _ :: _, h => by cases h
  | _ :: _, [], h => by cases h
  | term :: terms, operand :: operands, h => by
    obtain ⟨hhead, htail⟩ := List.cons.inj h
    exact Step.mapM_cons_ok (resolve_of_denoted hhead) (mapM_resolve htail)

/-- Either all terms stand for operands, or there is a first that does not. -/
theorem terms_cases (arguments : List Operand) : ∀ terms : List Term,
    (∃ operands : List Operand, terms.map (denoted? arguments) = operands.map some) ∨
      ∃ before index after, terms = before ++ .ref index :: after ∧
        (∀ i, .ref i ∈ before → i < arguments.length) ∧ arguments.length ≤ index
  | [] => .inl ⟨[], rfl⟩
  | term :: terms => by
    rcases denoted_cases arguments term with ⟨operand, hoperand⟩ | ⟨index, rfl, hge⟩
    · rcases terms_cases arguments terms with
        ⟨operands, hrest⟩ | ⟨before, index, after, rfl, hin, hge⟩
      · exact .inl ⟨operand :: operands, by simp only [List.map_cons, hoperand, hrest]⟩
      · refine .inr ⟨term :: before, index, after, rfl, fun i hi => ?_, hge⟩
        rcases List.mem_cons.mp hi with rfl | hi
        · exact (List.getElem?_eq_some_iff.mp hoperand).1
        · exact hin i hi
    · exact .inr ⟨[], index, terms, rfl, fun i hi => (by cases hi), hge⟩

theorem mapM_missing {before after : List Term} {index : Nat}
    (hin : ∀ i, .ref i ∈ before → i < arguments.length) (hge : arguments.length ≤ index) :
    (before ++ .ref index :: after).mapM (Term.resolve arguments) =
      .error ⟨.missingArgument ("$" ++ toString index), none⟩ := by
  refine Step.mapM_error_iff.mpr ⟨before, .ref index, after, rfl, fun term hterm => ?_,
    resolve_of_beyond hge⟩
  rcases denoted_cases arguments term with ⟨operand, hoperand⟩ | ⟨i, rfl, hi⟩
  · exact ⟨operand, resolve_of_denoted hoperand⟩
  · exact absurd (hin i hterm) (Nat.not_lt.mpr hi)

theorem read_of_parsed {text : String} {line : Line} (h : Line.parse text = .ok line)
    (arguments : List Operand) :
    read text arguments = (line.terms.mapM (Term.resolve arguments) >>= ofOperands line.name) := by
  unfold read
  rw [h]
  rfl

theorem read_iff {text : String} {result : Except Error Instruction} :
    read text arguments = result ↔ Reading text arguments result := by
  constructor
  · rintro rfl
    cases hparse : Line.parse text with
    | error e =>
      obtain ⟨rest, rfl⟩ := parse_unreadable hparse
      have hread : read text arguments = .error ⟨.unreadable text rest, none⟩ := by
        unfold read
        rw [hparse]
        rfl
      rw [hread]
      exact .unreadable hparse
    | ok line =>
      rw [read_of_parsed hparse]
      rcases terms_cases arguments line.terms with
        ⟨operands, hterms⟩ | ⟨before, index, after, hterms, hin, hge⟩
      · rw [mapM_resolve hterms]
        exact .resolved hparse hterms (ofOperands_iff.mp rfl)
      · rw [hterms, mapM_missing hin hge]
        exact .missing hparse hterms hin hge
  · intro h
    cases h with
    | unreadable hparse =>
      unfold read
      rw [hparse]
      rfl
    | missing hparse hterms hin hge =>
      rw [read_of_parsed hparse, hterms, mapM_missing hin hge]
      rfl
    | resolved hparse hterms hverdict =>
      rw [read_of_parsed hparse, mapM_resolve hterms]
      exact ofOperands_iff.mpr hverdict

/-! ## The check is exact -/

/-- An instruction is built exactly from operands that fit the parameters of its name, and anything
else ends in the first fault there is. Behind the check nothing is misread. A text ends where it
cannot be read, at the first reference without an argument, or as its name and operands do. -/
theorem operands_checked :
    (∀ name operands,
      (∀ result, ofOperands name operands = result ↔ Verdict name operands result) ∧
      ((∃ insn, ofOperands name operands = .ok insn) ↔
        ∃ op : Opcode, op.name = name ∧ op.Accepts operands) ∧
      staged name operands = (ofOperands name operands).mapError .inl) ∧
    ∀ text arguments result, read text arguments = result ↔ Reading text arguments result := by
  refine ⟨fun name operands => ⟨fun result => ofOperands_iff, ofOperands_isOk_iff, ?_⟩,
    fun text arguments result => read_iff⟩
  exact staged_eq name operands

end Instruction

end Datapack
