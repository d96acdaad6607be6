import SetLisp.Eval.Evaluate
import SetLisp.Proofs.Eval.Outcome
import SetLisp.Proofs.Scope.Bindings

namespace SetLisp

open Eval

variable {parameters before behind : List String} {args others : List Value} {name : String}

/-- The frame binds the names of the parameters in the order in which they first come, each to the
argument at the last place where it stands. -/
structure Frame.BindsParameters (frame : Frame) (parameters : List String) (args : List Value) :
    Prop where
  names_eq : frame.names = parameters.eraseDups
  find?_eq {before behind : List String} {name : String}
    (hplace : parameters = before ++ name :: behind) (hlast : name ∉ behind) :
    frame.find? name = args[before.length]?

theorem lastValue?_zip (hlength : parameters.length ≤ args.length)
    (hplace : parameters = before ++ name :: behind) (hlast : name ∉ behind) :
    lastValue? (parameters.zip args) name = args[before.length]? := by
  subst hplace
  rw [List.length_append, List.length_cons] at hlength
  obtain ⟨front, value, rest, rfl, hfront⟩ :
      ∃ front value rest, args = front ++ value :: rest ∧ front.length = before.length := by
    refine ⟨args.take before.length, args[before.length], args.drop (before.length + 1), ?_, ?_⟩
    · rw [List.getElem_cons_drop, List.take_append_drop]
    · rw [List.length_take]
      omega
  have hbehind : lastValue? (behind.zip rest) name = none := by
    rw [← Option.not_isSome_iff_eq_none, isSome_lastValue?, decide_eq_true_iff]
    intro hmem
    obtain ⟨binding, hbinding, rfl⟩ := List.mem_map.mp hmem
    exact hlast (List.of_mem_zip hbinding).1
  rw [List.zip_append hfront.symm, List.zip_cons_cons, List.append_cons, lastValue?_append, hbehind,
    Option.none_or, lastValue?_concat, if_pos rfl, ← hfront, List.getElem?_append_right
    (Nat.le_refl _), Nat.sub_self, List.getElem?_cons_zero]

theorem Frame.bindsParameters_update (hlength : parameters.length ≤ args.length) :
    (Frame.update [] (parameters.zip args)).BindsParameters parameters args where
  names_eq := by rw [Frame.names_update_nil, List.map_fst_zip hlength]
  find?_eq hplace hlast := by rw [Frame.find?_update_nil, lastValue?_zip hlength hplace hlast]

/-- In front of the frames of the caller, the scope hides what it binds and shows the rest. -/
theorem Chain.lookup?_push_update (chain : Chain) (hlength : parameters.length ≤ args.length)
    (name : String) :
    (chain.push (Frame.update [] (parameters.zip args))).lookup? name =
      if name ∈ parameters then (Frame.update [] (parameters.zip args)).find? name
      else chain.lookup? name := by
  have hbinds := Frame.binds_update_nil (parameters.zip args) name
  rw [List.map_fst_zip hlength, Frame.binds] at hbinds
  rw [Chain.lookup?_push]
  by_cases hname : name ∈ parameters
  · rw [decide_eq_true hname] at hbinds
    obtain ⟨value, hvalue⟩ := Option.isSome_iff_exists.mp hbinds
    rw [if_pos hname, hvalue, Option.some_or]
  · rw [decide_eq_false hname] at hbinds
    rw [if_neg hname, Option.not_isSome_iff_eq_none.mp (Bool.eq_false_iff.mp hbinds),
      Option.none_or]

section Calls

variable {evaluate : Value → Eval Value} {body : Value}

theorem applyLambda_of_short (hargs : args ≠ []) (hlength : args.length < parameters.length) :
    applyLambda evaluate parameters body args =
      fail (.tooFewArguments parameters.length args.length) := by
  rw [applyLambda, if_neg (mt List.isEmpty_iff.mp hargs), callScope, if_pos hlength]

theorem applyLambda_of_length_le (hargs : args ≠ []) (hlength : parameters.length ≤ args.length) :
    applyLambda evaluate parameters body args =
      inScope (Frame.update [] (parameters.zip args)) (evaluate body) := by
  rw [applyLambda, if_neg (mt List.isEmpty_iff.mp hargs), callScope,
    if_neg (Nat.not_lt.mpr hlength)]

/-- Only the arguments that parameters stand for count. -/
theorem applyLambda_congr (hargs : args ≠ []) (hothers : others ≠ [])
    (hlength : parameters.length ≤ args.length) (hlength' : parameters.length ≤ others.length)
    (hsame : others.take parameters.length = args.take parameters.length) :
    applyLambda evaluate parameters body others = applyLambda evaluate parameters body args := by
  have hzip {args : List Value} (hlength : parameters.length ≤ args.length) :
      parameters.zip args = parameters.zip (args.take parameters.length) := by
    rw [List.zip_eq_zip_take_min, Nat.min_eq_left hlength, List.take_length]
  rw [applyLambda_of_length_le hothers hlength', applyLambda_of_length_le hargs hlength,
    hzip hlength', hsame, ← hzip hlength]

/-- A call is rejected whatever evaluates the body exactly when there is no argument or there are
fewer than parameters. -/
theorem rejected_iff :
    (∃ error, ∀ evaluate machine,
      (applyLambda evaluate parameters body args).outcome machine =
        (.error (.error error), machine)) ↔
      args = [] ∨ args.length < parameters.length := by
  constructor
  · rintro ⟨error, hrejected⟩
    by_contra htaken
    obtain ⟨hargs, hlength⟩ := not_or.mp htaken
    have hanswer := hrejected (fun expr => pure expr) { chain := { own := [] } }
    rw [applyLambda_of_length_le hargs (Nat.not_lt.mp hlength), outcome_inScope, outcome_pure]
      at hanswer
    cases congrArg Prod.fst hanswer
  · intro hcount
    by_cases hargs : args = []
    · subst hargs
      exact ⟨.noArguments, fun _ _ => rfl⟩
    · have hlength := hcount.resolve_left hargs
      refine ⟨.tooFewArguments parameters.length args.length, fun evaluate machine => ?_⟩
      rw [applyLambda_of_short hargs hlength]
      rfl

end Calls

/-- **Calls bind parameters.** A call is rejected, with nothing evaluated and nothing changed,
exactly when there is no argument or there are fewer than parameters. Otherwise the body runs in
front of the frames of the caller in a frame that binds the parameters and is gone afterwards; all
other names mean what they mean to the caller, and further arguments make no difference. -/
theorem calls_bind_parameters (parameters : List String) (body : Value) (args : List Value) :
    ((∃ error, ∀ evaluate machine,
      (applyLambda evaluate parameters body args).outcome machine =
        (.error (.error error), machine)) ↔
      args = [] ∨ args.length < parameters.length) ∧
    (args = [] → ∀ evaluate, applyLambda evaluate parameters body args = fail .noArguments) ∧
    (args ≠ [] → args.length < parameters.length → ∀ evaluate,
      applyLambda evaluate parameters body args =
        fail (.tooFewArguments parameters.length args.length)) ∧
    (args ≠ [] → parameters.length ≤ args.length →
      (∃ scope : Frame, scope.BindsParameters parameters args ∧ ∀ evaluate machine,
        (applyLambda evaluate parameters body args).outcome machine =
          (((evaluate body).outcome (machine.enter scope)).1,
            ((evaluate body).outcome (machine.enter scope)).2.leave) ∧
        ∀ name, (machine.enter scope).chain.lookup? name =
          if name ∈ parameters then scope.find? name else machine.chain.lookup? name) ∧
      ∀ others, others ≠ [] → parameters.length ≤ others.length →
        others.take parameters.length = args.take parameters.length → ∀ evaluate,
          applyLambda evaluate parameters body others =
            applyLambda evaluate parameters body args) := by
  refine ⟨rejected_iff, ?_, fun hargs hlength evaluate => applyLambda_of_short hargs hlength,
    fun hargs hlength => ⟨?_, fun others hothers hlength' hsame evaluate =>
      applyLambda_congr hargs hothers hlength hlength' hsame⟩⟩
  · rintro rfl evaluate
    rfl
  · refine ⟨_, Frame.bindsParameters_update hlength, fun evaluate machine => ⟨?_, fun name => ?_⟩⟩
    · rw [applyLambda_of_length_le hargs hlength, outcome_inScope]
    · exact machine.chain.lookup?_push_update hlength name

/-- Two parameters have one name, which the caller binds as well, and there is an argument more than
parameters. A shorter call is rejected, and so is an empty one. -/
theorem calls_bind_parameters_repeated :
    let parameters := ["x", "y", "x"]
    let args : List Value := [.boolean true, .list [], .boolean false]
    let more : List Value := args ++ [.set []]
    let machine : Machine := { chain := { own := [("x", .set []), ("z", .list [])] } }
    let call (body : Value) (args : List Value) :=
      (applyLambda (evaluate 3) parameters body args).outcome machine
    (more ≠ [] ∧ parameters.length ≤ more.length) ∧
      (∃ scope : Frame, scope.BindsParameters parameters more ∧
        scope.names = ["x", "y"] ∧ scope.find? "x" = some (.boolean false)) ∧
      call (.symbol "x") more = (.ok (.boolean false), machine) ∧
      call (.symbol "z") more = (.ok (.list []), machine) ∧
      call (.symbol "z") args = (.ok (.list []), machine) ∧
      call (.symbol "x") [.boolean true] =
        (.error (.error (.tooFewArguments 3 1)), machine) ∧
      call (.symbol "x") [] = (.error (.error .noArguments), machine) := by
  intro parameters args more machine call
  have hargs : more ≠ [] := List.cons_ne_nil _ _
  have hlength : parameters.length ≤ more.length := by decide
  have htaken (body : Value) :=
    (calls_bind_parameters parameters body more).2.2.2 hargs hlength
  obtain ⟨⟨scope, hscope, -⟩, -⟩ := htaken (.symbol "x")
  have hz : call (.symbol "z") more = (.ok (.list []), machine) := rfl
  refine ⟨⟨hargs, hlength⟩, ⟨scope, hscope, hscope.names_eq, ?_⟩, rfl, hz, ?_, ?_, ?_⟩
  · exact @hscope.find?_eq ["x", "y"] [] "x" rfl List.not_mem_nil
  · have hsame := (htaken (.symbol "z")).2 args (List.cons_ne_nil _ _) (Nat.le_refl _) rfl
    exact (congrArg (Eval.outcome · machine) (hsame (evaluate 3))).trans hz
  · have hshort := (calls_bind_parameters parameters (.symbol "x") [.boolean true]).2.2.1
      (List.cons_ne_nil _ _) (by decide)
    exact congrArg (Eval.outcome · machine) (hshort (evaluate 3))
  · have hnone := (calls_bind_parameters parameters (.symbol "x") []).2.1 rfl
    exact congrArg (Eval.outcome · machine) (hnone (evaluate 3))

end SetLisp
