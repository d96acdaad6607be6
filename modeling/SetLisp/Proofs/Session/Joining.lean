import SetLisp.Proofs.Reading.Delimiters
import SetLisp.Proofs.Session.TermRun

/-!
# Joining texts

Whether texts are evaluated one after the other or joined into one makes no difference. In the
joined text all identities of the literals are set aside first, so they are handed out in another
order, and what is bound is the same up to those handed out since.
-/

namespace SetLisp

open Eval Function

variable {ρ : Nat → Nat}

/-- How many identities each group draws when the groups are evaluated one after the other. -/
def drawsOf (room : Nat) (machine : Machine) : List (List Value) → List Nat
  | [] => []
  | group :: rest =>
      let after := ((evaluateAll room group).outcome machine).2
      (after.next - machine.next) :: drawsOf room after rest

theorem length_drawsOf (room : Nat) (machine : Machine) (groups : List (List Value)) :
    (drawsOf room machine groups).length = groups.length := by
  induction groups generalizing machine with
  | nil => rfl
  | cons group rest ih => rw [drawsOf, List.length_cons, ih, List.length_cons]

theorem outcome_evaluateAll_append (room : Nat) (first second : List Value) (machine : Machine) :
    (evaluateAll room (first ++ second)).outcome machine =
      match (evaluateAll room first).outcome machine with
      | (.error halt, after) => (.error halt, after)
      | (.ok values, after) => (((evaluateAll room second).outcome after).1.map (values ++ ·),
          ((evaluateAll room second).outcome after).2) := by
  rw [evaluateAll, evaluateEach_append, ← evaluateAll, ← evaluateAll, outcome_bind]
  rcases (evaluateAll room first).outcome machine with ⟨halt | values, after⟩
  · rfl
  · dsimp only
    rw [outcome_bind]
    rcases (evaluateAll room second).outcome after with ⟨halt | others, ended⟩ <;> rfl

namespace Session

/-- Evaluates texts one after the other, as long as none fails. -/
def evalEach (session : Session) : List String → Except Failure (List Value) × Session
  | [] => (.ok [], session)
  | text :: rest =>
      match session.eval text with
      | (.error failure, session) => (.error failure, session)
      | (.ok values, session) =>
          let (others, session) := session.evalEach rest
          (others.map (values ++ ·), session)

/-- From the machine and the session on, one evaluation and one session have come to the same ending
and to the same bindings up to identities, and have printed and recorded the same. -/
structure EndsLike (ρ : Nat → Nat) (machine : Machine) (session : Session)
    (joined : Except Halt (List Value) × Machine) (split : Except Failure (List Value) × Session) :
    Prop where
  result_eq : split.1 = (joined.1.map (List.map (Value.renamed ρ))).mapError Failure.ofHalt
  chain_eq : split.2.machine.chain = joined.2.chain.renamed ρ
  printed : ∃ text, joined.2.output = machine.output ++ text ∧
    split.2.machine.output = session.machine.output ++ text
  recorded : ∃ entries, joined.2.log = machine.log ++ entries ∧
    split.2.machine.log = session.machine.log ++ entries

section Texts

variable {session : Session} {machine after ended : Machine} {place : Nat} {texts : List String}
  {groups : List (List Value)}

/-- What comes of the first text goes in front of what comes of the others. -/
theorem EndsLike.behind {values : List Value} {count : Nat}
    {joined : Except Halt (List Value) × Machine} {split : Except Failure (List Value) × Session}
    (hlevel : machine.level = session.machine.level)
    (hfirst : Machine.Renamed ρ machine (session.machine.skip count) after ended)
    (hrest : EndsLike ρ after { session with machine := ended } joined split) :
    EndsLike ρ machine session (joined.1.map (values ++ ·), joined.2)
      (split.1.map (values.map (Value.renamed ρ) ++ ·), split.2) where
  result_eq := by
    dsimp only
    rw [hrest.result_eq]
    cases joined.1 with
    | error halt => rfl
    | ok others => exact congrArg Except.ok List.map_append.symm
  chain_eq := hrest.chain_eq
  printed := by
    obtain ⟨text, hafter, hended⟩ := hfirst.printed
    obtain ⟨more, hjoined, hsplit⟩ := hrest.printed
    refine ⟨text ++ more, ?_, ?_⟩
    · rw [hjoined, hafter, String.append_assoc]
    · rw [hsplit, hended, String.append_assoc]
      rfl
  recorded := by
    obtain ⟨entries, hafter, hended⟩ := hfirst.recorded hlevel
    obtain ⟨more, hjoined, hsplit⟩ := hrest.recorded
    refine ⟨entries ++ more, ?_, ?_⟩
    · rw [hjoined, hafter, List.append_assoc]
    · rw [hsplit, hended, List.append_assoc]
      rfl

/-- **Texts keep in step.** Evaluated one after the other they come to what all their forms come to
in one go. -/
theorem InStep.endsLike
    (h : InStep ρ session machine place texts groups (drawsOf session.limit machine groups)) :
    EndsLike ρ machine session ((evaluateAll session.limit groups.flatten).outcome machine)
      (session.evalEach texts) := by
  induction texts generalizing session machine place groups with
  | nil =>
      cases h.read
      refine ⟨rfl, h.chain_eq, ⟨"", ?_, ?_⟩, [], ?_, ?_⟩
      · exact String.append_empty.symm
      · exact String.append_empty.symm
      · exact (List.append_nil _).symm
      · exact (List.append_nil _).symm
  | cons text rest ih =>
      obtain ⟨group, behind, rfl⟩ : ∃ group behind, groups = group :: behind := by
        cases h.read
        exact ⟨_, _, rfl⟩
      rw [List.flatten_cons, outcome_evaluateAll_append, evalEach]
      rw [drawsOf] at h
      rcases hgroup : (evaluateAll session.limit group).outcome machine with ⟨result, after⟩
      rw [hgroup] at h
      dsimp only at h
      have hdrawn : after.next = machine.next + (after.next - machine.next) := by
        obtain ⟨-, -, -, drawn, -, hdrawn⟩ := exists_drawn hgroup
        omega
      obtain ⟨hparse, ended, hended, hafter⟩ := h.evaluates hgroup hdrawn
      have heval := eval_eq hparse
      rw [hended] at heval
      rw [heval]
      cases result with
      | error halt => exact ⟨rfl, hafter.chain_eq, hafter.printed, hafter.recorded h.level_eq.symm⟩
      | ok values =>
          have hstep : InStep ρ { session with machine := ended } after _ rest behind
              (drawsOf session.limit after behind) := h.behind hafter hdrawn
          exact (ih hstep).behind h.level_eq.symm hafter

end Texts

theorem tokenize_append_blanks {blanks : String}
    (hblank : ∀ c ∈ blanks.toList, Text.isBlank c = true) (hnonempty : blanks ≠ "")
    (first second : String) :
    tokenize (first ++ blanks ++ second) = tokenize first ++ tokenize second := by
  obtain ⟨c, rest, hblanks⟩ := List.exists_cons_of_ne_nil (mt String.toList_eq_nil_iff.mp hnonempty)
  rw [hblanks] at hblank
  rw [tokenize, String.toList_append, String.toList_append, hblanks, List.append_assoc,
    List.cons_append, Token.scan_append_blank (hblank c List.mem_cons_self),
    Token.scan_blanks fun d hd => hblank d (List.mem_cons_of_mem c hd), List.map_append]
  rfl

/-- The texts come to what one text comes to that has their tokens. -/
theorem exists_evalEach_like_eval {session : Session} {texts : List String} {text : String}
    (hfresh : session.machine.Fresh) (htokens : tokenize text = texts.flatMap tokenize)
    (haccepted : ∀ part ∈ texts, ∃ exprs,
      parseAll session.limit session.machine.next (tokenize part) = .ok exprs) :
    ∃ ρ, Injective ρ ∧ (∀ id < session.machine.next, ρ id = id) ∧
      (session.evalEach texts).1 = (session.eval text).1.map (List.map (Value.renamed ρ)) ∧
      (session.evalEach texts).2.machine.chain = (session.eval text).2.machine.chain.renamed ρ ∧
      (session.evalEach texts).2.machine.output = (session.eval text).2.machine.output ∧
      (session.evalEach texts).2.machine.log = (session.eval text).2.machine.log := by
  obtain ⟨groups, hread⟩ := exists_readsInGroups_of_accepted haccepted session.machine.next
  have hparse := hread.parseAll_eq
  rw [← htokens] at hparse
  obtain ⟨ρ, hfixed, hstep⟩ := exists_inStep hfresh hread
    (length_drawsOf session.limit (session.machine.skip (tokenize text).length) groups).symm
  rw [← htokens] at hstep
  have hends := hstep.endsLike
  obtain ⟨printed, hprinted, hprinted'⟩ := hends.printed
  obtain ⟨entries, hrecorded, hrecorded'⟩ := hends.recorded
  rw [eval_eq hparse]
  refine ⟨ρ, hstep.injective, hfixed, ?_, hends.chain_eq, hprinted'.trans hprinted.symm,
    hrecorded'.trans hrecorded.symm⟩
  rw [hends.result_eq]
  dsimp only
  cases ((evaluateAll session.limit groups.flatten).outcome _).1 <;> rfl

/-- **Splitting a text changes nothing.** Two texts that the parser accepts, joined by blanks, are
evaluated as they are one after the other: the values of the first are followed by those of the
second, and the same is printed, recorded and bound, up to identities handed out since. If a form of
either fails, it fails alike, at the same bindings. -/
theorem eval_joined (session : Session) (hfresh : session.machine.Fresh)
    {first blanks second : String} (hblank : ∀ c ∈ blanks.toList, Text.isBlank c = true)
    (hnonempty : blanks ≠ "") {exprs others : List Value}
    (hfirst : parseAll session.limit session.machine.next (tokenize first) = .ok exprs)
    (hsecond : parseAll session.limit session.machine.next (tokenize second) = .ok others) :
    let joined := session.eval (first ++ blanks ++ second)
    let split := session.evalEach [first, second]
    ∃ ρ, Injective ρ ∧ (∀ id < session.machine.next, ρ id = id) ∧
      split.1 = joined.1.map (List.map (Value.renamed ρ)) ∧
      split.2.machine.chain = joined.2.machine.chain.renamed ρ ∧
      split.2.machine.output = joined.2.machine.output ∧
      split.2.machine.log = joined.2.machine.log := by
  have htokens : tokenize (first ++ blanks ++ second) = [first, second].flatMap tokenize := by
    rw [tokenize_append_blanks hblank hnonempty]
    simp
  exact exists_evalEach_like_eval hfresh htokens <|
    List.forall_mem_cons.mpr ⟨⟨exprs, hfirst⟩, List.forall_mem_singleton.mpr ⟨others, hsecond⟩⟩

/-- The second text ends with a form that fails. What was bound and printed before is the same, be
it in one evaluation or in two. -/
theorem eval_joined_failing :
    let session := Session.start .none false
    let first := "(fn f x (print x)) (f true)"
    let second := "'(false) (f (f false)) nope"
    session.machine.Fresh ∧ (∀ c ∈ "\n ".toList, Text.isBlank c = true) ∧ "\n " ≠ "" ∧
      (∃ exprs, parseAll session.limit session.machine.next (tokenize first) = .ok exprs) ∧
      (∃ others, parseAll session.limit session.machine.next (tokenize second) = .ok others) ∧
      (session.eval (first ++ "\n " ++ second)).1 = .error (.eval (.unknownSymbol "nope")) ∧
      (session.evalEach [first, second]).1 = .error (.eval (.unknownSymbol "nope")) ∧
      (session.evalEach [first, second]).2.machine.output = "true\nfalse\nfalse\n" ∧
      (session.evalEach [first, second]).2.machine.chain.own.names =
        initialFrame.names ++ ["f"] := by
  intro session first second
  have hfresh : session.machine.Fresh := fresh_start .none false
  have hblank : ∀ c ∈ "\n ".toList, Text.isBlank c = true := by
    change ∀ c ∈ ['\n', ' '], Text.isBlank c = true
    exact List.forall_mem_cons.mpr ⟨rfl, List.forall_mem_singleton.mpr rfl⟩
  let exprs : List Value := [
    .list [.symbol "fn", .symbol "f", .symbol "x", .list [.symbol "print", .symbol "x"]],
    .list [.symbol "f", .boolean true]]
  let others : List Value := [.list [.symbol "list", .boolean false],
    .list [.symbol "f", .list [.symbol "f", .boolean false]], .symbol "nope"]
  have hfirst : parseAll session.limit session.machine.next (tokenize first) = .ok exprs := by
    dsimp only [first]
    rfl
  have hsecond : parseAll session.limit session.machine.next (tokenize second) = .ok others := by
    dsimp only [second]
    rfl
  have hparse : parseAll session.limit session.machine.next
      (tokenize (first ++ "\n " ++ second)) = .ok (exprs ++ others) := by
    dsimp only [first, second]
    rfl
  have heval := eval_eq hparse
  obtain ⟨ρ, -, -, hresult, hchain, houtput, -⟩ :=
    eval_joined session hfresh hblank (by decide) hfirst hsecond
  have hfails : (session.eval (first ++ "\n " ++ second)).1 =
      .error (.eval (.unknownSymbol "nope")) := by
    rw [heval]
    rfl
  refine ⟨hfresh, hblank, by decide, ⟨exprs, hfirst⟩, ⟨others, hsecond⟩, hfails, ?_, ?_, ?_⟩
  · rw [hresult, hfails]
    rfl
  · rw [houtput, heval]
    rfl
  · rw [hchain, heval]
    rfl

end Session

end SetLisp
