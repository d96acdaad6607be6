import SetLisp.Proofs.Eval.Room
import SetLisp.Proofs.Reading.Room
import SetLisp.Proofs.Session.Fresh

namespace SetLisp.Session

open Eval

/-- The session under another limit. -/
def withLimit (session : Session) (limit : Nat) : Session :=
  { session with limit := limit }

variable {α : Type} {action action' : Eval α} {limit : Nat}

/-- What comes of an action either is what comes of the other under another limit, or it is the
error of having no room, and the other has gone on from there. -/
def SameOrOutOfRoom (limit : Nat) (short long : Except Failure α × Session) : Prop :=
  long = (short.1, short.2.withLimit limit) ∨
    short.1 = .error (.eval .depthExceeded) ∧ short.2.machine.GrowsTo long.2.machine

theorem SameOrOutOfRoom.growsTo {short long : Except Failure α × Session}
    (h : SameOrOutOfRoom limit short long) : short.2.machine.GrowsTo long.2.machine := by
  rcases h with rfl | ⟨-, hgrows⟩
  · exact .refl
  · exact hgrows

theorem run_withLimit (session : Session) (h : Truncates action action') :
    SameOrOutOfRoom limit (session.run action) ((session.withLimit limit).run action') := by
  have hrun (session : Session) (action : Eval α) : session.run action =
      ((action.outcome session.machine).1.mapError Failure.ofHalt,
        { session with machine := (action.outcome session.machine).2 }) := rfl
  rw [hrun, hrun]
  rcases h.same_or_cut session.machine with hsame | ⟨hcut, hgrows⟩
  · refine .inl ?_
    rw [hsame]
    rfl
  · refine .inr ⟨?_, hgrows⟩
    rw [hcut]
    rfl

theorem runText_withLimit (session : Session) (hle : session.limit ≤ limit) (code : String)
    {action action' : List Value → Eval α} (h : ∀ exprs, Truncates (action exprs) (action' exprs)) :
    SameOrOutOfRoom limit (session.runText code action)
      ((session.withLimit limit).runText code action') := by
  have hmachine : (session.withLimit limit).machine = session.machine := rfl
  have hlimit : (session.withLimit limit).limit = limit := rfl
  rw [runText, runText, hmachine, hlimit]
  generalize tokenize code = tokens
  by_cases hdeep : ∃ position,
      parseAll session.limit session.machine.next tokens = Parser.fail .tooDeep position
  · obtain ⟨position, hdeep⟩ := hdeep
    rw [hdeep]
    refine .inr ⟨rfl, ?_⟩
    cases parseAll limit session.machine.next tokens with
    | error failure => exact .refl
    | ok exprs => exact (Machine.GrowsTo.skip tokens.length).trans ((h exprs).growsTo_second _)
  · rw [parseAll_of_le hle (not_exists.mp hdeep)]
    cases parseAll session.limit session.machine.next tokens with
    | error failure => exact .inl rfl
    | ok exprs => exact run_withLimit _ (h exprs)

/-- **The limit can only cut short.** What a text comes to without running out of room, its values
or its error, the text printed, the bindings and all else, it comes to under every larger limit. If
it does run out of room, then what it has printed is the beginning of what is printed under the
larger limit, and the names it has bound are bound there too. -/
theorem limit_only_cuts_short (session : Session) {limit : Nat} (hle : session.limit ≤ limit)
    (code : String) :
    let short := session.eval code
    let long := (session.withLimit limit).eval code
    (short.1 ≠ .error (.eval .depthExceeded) → long = (short.1, short.2.withLimit limit)) ∧
      (short.1 = .error (.eval .depthExceeded) →
        (∃ printed, long.2.machine.output = short.2.machine.output ++ printed) ∧
          short.2.machine.chain.own.names <+: long.2.machine.chain.own.names ∧
          long.2.machine.chain.outer = short.2.machine.chain.outer) := by
  intro short long
  have hsame : SameOrOutOfRoom limit short long :=
    session.runText_withLimit hle code fun exprs =>
      truncates_evaluateEach (truncates_evaluate hle) exprs
  constructor
  · intro hroom
    exact hsame.resolve_right fun hcut => hroom hcut.1
  · intro _
    obtain ⟨houter, hnames, houtput⟩ := hsame.growsTo
    exact ⟨houtput, hnames, houter⟩

/-- There is room to bind and to print, but not for a list in a list; one level more is enough. -/
theorem limit_only_cuts_short_nested :
    let session (limit : Nat) : Session := { start .none false with limit := limit }
    let run (limit : Nat) := (session limit).eval "(define x true) (print x) (list (list x))"
    let values : List Value := [.boolean true, .boolean true, .list [.list [.boolean true]]]
    (run 2).1 = .error (.eval .depthExceeded) ∧
      (∃ printed, (run 3).2.machine.output = "true\n" ++ printed) ∧
      initialFrame.names ++ ["x"] <+: (run 3).2.machine.chain.own.names ∧
      (run 3).1 = .ok values ∧ (run 4).1 = .ok values := by
  intro session run values
  let exprs : List Value := [.list [.symbol "define", .symbol "x", .boolean true],
    .list [.symbol "print", .symbol "x"],
    .list [.symbol "list", .list [.symbol "list", .symbol "x"]]]
  have hparse : parseAll 2 1 (tokenize "(define x true) (print x) (list (list x))") = .ok exprs :=
    rfl
  have hparse' : parseAll 3 1 (tokenize "(define x true) (print x) (list (list x))") = .ok exprs :=
    (parseAll_of_le (by decide) (by rw [hparse]; nofun)).trans hparse
  have heval (limit : Nat) : run limit =
      (session limit).eval "(define x true) (print x) (list (list x))" := rfl
  have hraised (limit more : Nat) :
      ((session limit).withLimit more).eval "(define x true) (print x) (list (list x))" =
        run more := rfl
  have hcut : (run 2).1 = .error (.eval .depthExceeded) := by
    rw [heval, @eval_eq (session 2) _ _ hparse]
    rfl
  have houtput : (run 2).2.machine.output = "true\n" := by
    rw [heval, @eval_eq (session 2) _ _ hparse]
    rfl
  have hnames : (run 2).2.machine.chain.own.names = initialFrame.names ++ ["x"] := by
    rw [heval, @eval_eq (session 2) _ _ hparse]
    rfl
  have hvalues : (run 3).1 = .ok values := by
    rw [heval, @eval_eq (session 3) _ _ hparse']
    rfl
  have hroom : (run 3).1 ≠ .error (.eval .depthExceeded) := by rw [hvalues]; nofun
  have hlimit : (session 2).limit ≤ 3 := by decide
  have hlimit' : (session 3).limit ≤ 4 := by decide
  have hprefix := (limit_only_cuts_short (session 2) hlimit _).2 (heval 2 ▸ hcut)
  have hsame := (limit_only_cuts_short (session 3) hlimit' _).1 (heval 3 ▸ hroom)
  rw [hraised, ← heval] at hprefix hsame
  obtain ⟨hprinted, hbound, -⟩ := hprefix
  rw [houtput] at hprinted
  rw [hnames] at hbound
  refine ⟨hcut, hprinted, hbound, hvalues, ?_⟩
  rw [hsame, hvalues]

end SetLisp.Session
