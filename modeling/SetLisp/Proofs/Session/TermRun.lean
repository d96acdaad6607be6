import SetLisp.Proofs.Eval.Naming
import SetLisp.Proofs.Reading.Regrouping
import SetLisp.Proofs.Session.Fresh
import SetLisp.Proofs.Session.Passages
import SetLisp.Proofs.Session.Actions
import SetLisp.Proofs.Session.Relocation
import SetLisp.Session.File

namespace SetLisp

open Eval Function

variable {ρ : Nat → Nat}

theorem length_of_evaluateAll {room : Nat} {exprs values : List Value} {machine after : Machine}
    (h : (evaluateAll room exprs).outcome machine = (.ok values, after)) :
    values.length = exprs.length := by
  induction exprs generalizing machine values with
  | nil =>
      cases h
      rfl
  | cons expr rest ih =>
      rw [evaluateAll, evaluateEach] at h
      obtain ⟨value, middle, -, hrest⟩ := outcome_bind_eq_ok.mp h
      obtain ⟨others, last, hothers, hpure⟩ := outcome_bind_eq_ok.mp hrest
      cases hpure
      rw [List.length_cons, ih hothers, List.length_cons]

namespace Session

/-- The identities that terms set aside, and those that their forms draw. -/
def blocksOf (terms : List String) (draws : List Nat) : List (Nat × Nat) :=
  terms.zipWith (fun term drawn => ((tokenize term).length, drawn)) draws

/-- The session has the bindings of the machine up to identities. Its terms hold the groups that are
to be evaluated on the machine; they stand at `place` in the text, and the renaming takes the
identities of the groups to those the terms will get. -/
structure InStep (ρ : Nat → Nat) (session : Session) (machine : Machine) (place : Nat)
    (terms : List String) (groups : List (List Value)) (draws : List Nat) : Prop where
  injective : Injective ρ
  shared : ρ sharedPayload = sharedPayload
  chain_eq : session.machine.chain = machine.chain.renamed ρ
  level_eq : session.machine.level = machine.level
  read : ReadsInGroups session.limit place terms groups
  relocates : Relocates ρ place machine.next session.machine.next (blocksOf terms draws)

theorem asideCount_blocksOf {terms : List String} {draws : List Nat}
    (h : terms.length = draws.length) :
    asideCount (blocksOf terms draws) = (terms.flatMap tokenize).length := by
  induction terms generalizing draws with
  | nil => rfl
  | cons term rest ih =>
      cases draws with
      | nil => cases h
      | cons drawn draws =>
          rw [blocksOf, List.zipWith_cons_cons, asideCount, List.flatMap_cons,
            List.length_append, ← ih (Nat.succ.inj h), blocksOf]

/-- Before any of them is run, the terms of a text are in step with its evaluation. -/
theorem exists_inStep {session : Session} {terms : List String} {groups : List (List Value)}
    {draws : List Nat} (hfresh : session.machine.Fresh)
    (hread : ReadsInGroups session.limit session.machine.next terms groups)
    (hdraws : groups.length = draws.length) :
    ∃ ρ, (∀ id < session.machine.next, ρ id = id) ∧
      InStep ρ session (session.machine.skip (terms.flatMap tokenize).length)
        session.machine.next terms groups draws := by
  obtain ⟨ρ, hinjective, hfixed, hrelocates⟩ :=
    exists_relocates (blocksOf terms draws) session.machine.next
  rw [asideCount_blocksOf (hread.length_eq.trans hdraws)] at hrelocates
  exact ⟨ρ, hfixed, hinjective, hfixed _ hfresh.shared,
    (hfresh.renamed_eq hinjective hfixed).symm, rfl, hread, hrelocates⟩

section Term

variable {session : Session} {machine after : Machine} {place drawn : Nat} {term : String}
  {terms : List String} {group : List Value} {groups : List (List Value)} {draws : List Nat}

/-- The forms of a term are read and evaluated as in the text, up to identities. -/
theorem InStep.evaluates {result : Except Halt (List Value)}
    (h : InStep ρ session machine place (term :: terms) (group :: groups) (drawn :: draws))
    (hgroup : (evaluateAll session.limit group).outcome machine = (result, after))
    (hdrawn : after.next = machine.next + drawn) :
    parseAll session.limit session.machine.next (tokenize term) =
        .ok (group.map (Value.renamed ρ)) ∧
      ∃ ended, (evaluateAll session.limit (group.map (Value.renamed ρ))).outcome
          (session.machine.skip (tokenize term).length) =
            (result.map (List.map (Value.renamed ρ)), ended) ∧
        Machine.Renamed ρ machine (session.machine.skip (tokenize term).length) after ended := by
  obtain ⟨haside, hsupply, -⟩ := h.relocates
  have hparse : parseAll session.limit place (tokenize term) = .ok group := by
    cases h.read with
    | cons hterm _ => exact hterm
  have hcarries : Carries ρ machine (session.machine.skip (tokenize term).length) after.next :=
    { injective := h.injective
      shared := h.shared
      supply := by
        intro identity hstart hbound
        have hbelow : identity - machine.next < drawn := by omega
        have hidentity := hsupply _ hbelow
        rw [Nat.add_sub_of_le hstart] at hidentity
        rw [hidentity, Machine.skip]
        dsimp only
        omega }
  have hagrees := (renames_evaluateAll hcarries session.limit group).agrees (.refl h.chain_eq)
  rw [hgroup] at hagrees
  have hlevel : machine.level = (session.machine.skip (tokenize term).length).level :=
    h.level_eq.symm
  obtain ⟨hresult, hafter⟩ := hagrees (Nat.le_refl after.next) (.of_level_eq hlevel)
  exact ⟨parseAll_renamed hparse haside, _, Prod.ext hresult rfl, hafter⟩

/-- A term is evaluated like its forms as part of the text. -/
theorem InStep.evalTerm_eq {result : Except Halt (List Value)}
    (h : InStep ρ session machine place (term :: terms) (group :: groups) (drawn :: draws))
    (hquiet : machine.level.admits .debug = false)
    (hgroup : (evaluateAll session.limit group).outcome machine = (result, after))
    (hdrawn : after.next = machine.next + drawn) :
    ∃ ended, session.evalTerm term =
        ((result.map fun values =>
          (group.map (Value.renamed ρ)).zip (values.map (Value.renamed ρ))).mapError Failure.ofHalt,
          { session with machine := ended }) ∧
      Machine.Renamed ρ machine (session.machine.skip (tokenize term).length) after ended := by
  obtain ⟨hparse, ended, hended, hafter⟩ := h.evaluates hgroup hdrawn
  refine ⟨ended, ?_, hafter⟩
  have hquiet' : (session.machine.skip (tokenize term).length).level.admits .debug = false :=
    h.level_eq ▸ hquiet
  rw [evalTerm, runText, hparse]
  dsimp only
  rw [run_eq, outcome_evaluateRecorded session.limit _ hquiet', hended]
  cases result <;> rfl

/-- A term whose forms have values shows its passage. -/
theorem InStep.runTerm_of_ok {values : List Value}
    (h : InStep ρ session machine place (term :: terms) (group :: groups) (drawn :: draws))
    (hquiet : machine.level.admits .debug = false)
    (hgroup : (evaluateAll session.limit group).outcome machine = (.ok values, after))
    (hdrawn : after.next = machine.next + drawn)
    (hshown : ∀ value ∈ values, value.textFault? session.limit = none) :
    ∃ ended, session.runTerm term =
        (.ok (), { session with machine := ended }.write (shownValues values)) ∧
      Machine.Renamed ρ machine (session.machine.skip (tokenize term).length) after ended := by
  obtain ⟨ended, hterm, hafter⟩ := h.evalTerm_eq hquiet hgroup hdrawn
  refine ⟨ended, ?_, hafter⟩
  have hlength : (group.map (Value.renamed ρ)).length = (values.map (Value.renamed ρ)).length := by
    rw [List.length_map, List.length_map, length_of_evaluateAll hgroup]
  have hvalues : ((group.map (Value.renamed ρ)).zip (values.map (Value.renamed ρ))).map (·.2) =
      values.map (Value.renamed ρ) :=
    List.map_snd_zip hlength.ge
  have htexts : (textsOf session.limit (values.map (Value.renamed ρ))).outcome ended =
      (.ok (values.map Value.text), ended) := by
    rw [outcome_textsOf, List.map_map]
    · exact congrArg (fun texts => (Except.ok texts, ended))
        (List.map_congr_left fun value _ => value.text_renamed)
    · intro value hvalue
      obtain ⟨other, hother, rfl⟩ := List.mem_map.mp hvalue
      rw [Value.textFault?_renamed]
      exact hshown other hother
  rw [runTerm, hterm]
  dsimp only [Except.map, Except.mapError]
  rw [hvalues, run_eq, htexts, ← join_texts]
  rfl

/-- A term that halts shows no value. -/
theorem InStep.runTerm_of_error {halt : Halt}
    (h : InStep ρ session machine place (term :: terms) (group :: groups) (drawn :: draws))
    (hquiet : machine.level.admits .debug = false)
    (hgroup : (evaluateAll session.limit group).outcome machine = (.error halt, after))
    (hdrawn : after.next = machine.next + drawn) :
    ∃ ended, session.runTerm term = (.error (.ofHalt halt), { session with machine := ended }) ∧
      Machine.Renamed ρ machine (session.machine.skip (tokenize term).length) after ended := by
  obtain ⟨ended, hterm, hafter⟩ := h.evalTerm_eq hquiet hgroup hdrawn
  refine ⟨ended, ?_, hafter⟩
  rw [runTerm, hterm]
  rfl

/-- The terms behind are in step again once a term has been run. -/
theorem InStep.behind {ended : Machine}
    (h : InStep ρ session machine place (term :: terms) (group :: groups) (drawn :: draws))
    (hended : Machine.Renamed ρ machine (session.machine.skip (tokenize term).length) after ended)
    (hdrawn : after.next = machine.next + drawn) :
    InStep ρ { session with machine := ended } after (place + (tokenize term).length) terms groups
      draws where
  injective := h.injective
  shared := h.shared
  chain_eq := hended.chain_eq
  level_eq := by
    rw [hended.level_eq, ← h.level_eq]
    exact hended.level_eq'
  read := by
    cases h.read with
    | cons _ hterms => exact hterms
  relocates := by
    obtain ⟨-, -, hrest⟩ := h.relocates
    have hnext := hended.next_eq
    simp only [Machine.skip] at hnext
    have hended' : ended.next = session.machine.next + (tokenize term).length + drawn := by omega
    rwa [hdrawn, hended']

/-- Writing a text does not bring the session out of step. -/
theorem InStep.write (h : InStep ρ session machine place terms groups draws) (text : String) :
    InStep ρ (session.write text) machine place terms groups draws :=
  ⟨h.injective, h.shared, h.chain_eq, h.level_eq, h.read, h.relocates⟩

/-- Nor does keeping a record. -/
theorem InStep.record (h : InStep ρ session machine place terms groups draws) (severity : Severity)
    (message : String) :
    InStep ρ (session.record severity message) machine place terms groups draws := by
  unfold Session.record Machine.record
  dsimp only
  split
  · exact ⟨h.injective, h.shared, h.chain_eq, h.level_eq, h.read, h.relocates⟩
  · exact h

/-- **A term keeps in step.** If its forms have values, it shows their passage and the terms behind
it are run in step. -/
theorem InStep.runTerms_cons {passage : Passage}
    (h : InStep ρ session machine place (term :: terms) (group :: groups) (passage.drawn :: draws))
    (hquiet : machine.level.admits .debug = false)
    (hgroup : passage.Tells session.limit machine group after)
    (hshown : ∀ value ∈ passage.values, value.textFault? session.limit = none) (index : Nat) :
    ∃ ended, session.runTerms index (term :: terms) =
        { session with machine := ended }.runTerms (index + 1) terms ∧
      InStep ρ { session with machine := ended } after (place + (tokenize term).length) terms groups
        draws ∧
      ended.output = session.machine.output ++ passage.shown ∧
      ended.errors = session.machine.errors := by
  obtain ⟨ended, hterm, hended⟩ := h.runTerm_of_ok hquiet hgroup.outcome_eq hgroup.next_eq hshown
  obtain ⟨text, hafter, houtput⟩ := hended.printed
  rw [hgroup.output_eq] at hafter
  obtain rfl : passage.printed = text := (String.append_right_inj _).mp hafter
  have hstep := (h.behind hended hgroup.next_eq).write (shownValues passage.values)
  refine ⟨ended.write (shownValues passage.values), ?_, hstep, ?_, hended.errors_eq'⟩
  · rw [runTerms, hterm]
    rfl
  · calc (ended.write (shownValues passage.values)).output
        = session.machine.output ++ passage.printed ++ shownValues passage.values :=
          congrArg (· ++ shownValues passage.values) houtput
      _ = session.machine.output ++ passage.shown := String.append_assoc

end Term

/-- **A run keeps in step.** Terms whose forms have values show their passages. -/
theorem InStep.runTerms_of_passes {room : Nat} {session : Session} {machine after : Machine}
    {place : Nat} {terms : List String} {groups behind : List (List Value)}
    {passages : List Passage} {draws : List Nat}
    (hpasses : Passes room machine groups passages after)
    (h : InStep ρ session machine place terms (groups ++ behind)
      (passages.map Passage.drawn ++ draws))
    (hquiet : machine.level.admits .debug = false) (hlimit : session.limit = room)
    (hshown : ∀ passage ∈ passages, ∀ value ∈ passage.values, value.textFault? room = none)
    (index : Nat) :
    ∃ done rest place' ended, terms = done ++ rest ∧ done.length = groups.length ∧
      session.runTerms index terms =
        { session with machine := ended }.runTerms (index + done.length) rest ∧
      InStep ρ { session with machine := ended } after place' rest behind draws ∧
      ended.output = session.machine.output ++ String.join (passages.map Passage.shown) ∧
      ended.errors = session.machine.errors := by
  induction hpasses generalizing session place terms index with
  | nil => exact ⟨[], terms, place, session.machine, rfl, rfl, rfl, h, by simp, rfl⟩
  | @cons machine middle after group groups passage passages hgroup hpasses ih =>
      subst hlimit
      obtain ⟨term, terms, rfl⟩ : ∃ term rest, terms = term :: rest := by
        cases h.read
        exact ⟨_, _, rfl⟩
      obtain ⟨first, hterm, hstep, hfirstOutput, hfirstErrors⟩ :=
        InStep.runTerms_cons h hquiet hgroup (hshown passage List.mem_cons_self) index
      obtain ⟨done, rest, place', ended, rfl, hlength, hrun, hended, houtput, herrors⟩ :=
        ih hstep (hgroup.quiet hquiet) rfl
          (fun other hother => hshown other (List.mem_cons_of_mem passage hother)) (index + 1)
      refine ⟨term :: done, rest, place', ended, rfl, ?_, ?_, hended, ?_,
        herrors.trans hfirstErrors⟩
      · rw [List.length_cons, hlength, List.length_cons]
      · rw [hterm, hrun, List.length_cons, Nat.add_assoc, Nat.add_comm 1]
      · rw [houtput, hfirstOutput, List.map_cons, String.join_cons, String.append_assoc]

/-- The first of the terms fails, and the session does not go on. -/
theorem runTerms_of_failure {session ended : Session} {term : String} {failure : Failure}
    (hterm : session.runTerm term = (.error failure, ended))
    (hfailure : ∀ fault, failure ≠ .fault fault)
    (hstops : ended.keepGoing = false) (index : Nat) (rest : List String) :
    session.runTerms index (term :: rest) = (.ok 1, ended.record .error
      ("term " ++ toString index ++ " " ++ abbreviate term ++ ": " ++ failure.message)) := by
  have hstops' (message : String) : (ended.record .error message).keepGoing = false := hstops
  rw [runTerms, hterm]
  cases failure with
  | fault fault => exact absurd rfl (hfailure fault)
  | parse error | eval error =>
      dsimp only
      rw [hstops', if_neg Bool.false_ne_true]

/-- A term whose forms halt ends the run, behind the passages of the terms in front of it. -/
theorem InStep.runTerms_of_halt {room : Nat} {session : Session} {machine middle after : Machine}
    {place drawn : Nat} {terms : List String} {before behind : List (List Value)}
    {group : List Value} {passages : List Passage} {draws : List Nat} {halt : Halt}
    {printed : String} (hpasses : Passes room machine before passages middle)
    (hgroup : (evaluateAll room group).outcome middle = (.error halt, after))
    (hprinted : after.output = middle.output ++ printed) (hdrawn : after.next = middle.next + drawn)
    (h : InStep ρ session machine place terms (before ++ group :: behind)
      (passages.map Passage.drawn ++ drawn :: draws))
    (hquiet : machine.level.admits .debug = false)
    (hlimit : session.limit = room)
    (hshown : ∀ passage ∈ passages, ∀ value ∈ passage.values, value.textFault? room = none)
    (hhalt : ∀ fault, Failure.ofHalt halt ≠ .fault fault) (hstops : session.keepGoing = false)
    (index : Nat) :
    ∃ done term rest halted, terms = done ++ term :: rest ∧ done.length = before.length ∧
      session.runTerms index terms = (.ok 1, ({ session with machine := halted } : Session).record
        .error ("term " ++ toString (index + done.length) ++ " " ++ abbreviate term ++ ": " ++
          (Failure.ofHalt halt).message)) ∧
      halted.chain = after.chain.renamed ρ ∧
      halted.output =
        session.machine.output ++ (String.join (passages.map Passage.shown) ++ printed) ∧
      halted.errors = session.machine.errors := by
  obtain ⟨done, rest, place, ended, rfl, hlength, hrun, hlast, houtput, herrors⟩ :=
    InStep.runTerms_of_passes hpasses h hquiet hlimit hshown index
  subst hlimit
  obtain ⟨term, rest, rfl⟩ : ∃ term others, rest = term :: others := by
    cases hlast.read
    exact ⟨_, _, rfl⟩
  obtain ⟨halted, hterm, hhalted⟩ := hlast.runTerm_of_error (hpasses.quiet hquiet) hgroup hdrawn
  obtain ⟨text, htext, hwritten⟩ := hhalted.printed
  obtain rfl : printed = text := (String.append_right_inj _).mp (hprinted.symm.trans htext)
  have hfailure := runTerms_of_failure hterm hhalt hstops (index + done.length) rest
  refine ⟨done, term, rest, halted, rfl, hlength, hrun.trans hfailure, hhalted.chain_eq, ?_,
    hhalted.errors_eq'.trans herrors⟩
  calc halted.output
      = ended.output ++ printed := hwritten
    _ = session.machine.output ++ String.join (passages.map Passage.shown) ++ printed := by
        rw [houtput]
    _ = session.machine.output ++ (String.join (passages.map Passage.shown) ++ printed) :=
        String.append_assoc

end Session

end SetLisp
