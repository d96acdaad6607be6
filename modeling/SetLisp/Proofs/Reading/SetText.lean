import SetLisp.Proofs.Eval.CallOrder
import SetLisp.Proofs.Reading.RoundTrip
import SetLisp.Proofs.Value.Members

/-!
# The text of a set

The braces a set is shown in are sugar for the call that makes it. So the text of a set is read as
calls of `set` nested as the sets are, and evaluating these calls gives the set again: the members
are told apart before they are shown, hence each is taken in turn and none is dropped.
-/

namespace SetLisp

open Eval

theorem Double.marked_of_isNaN_eq_false {x : Double} (hx : x.isNaN = false) (payload : Nat) :
    x.marked payload = x := by
  cases x with
  | nan => cases hx
  | infinite | finite => rfl

namespace Value

/-- Booleans, numbers and sets of such, with nothing that is not a number. -/
inductive IsData : Value → Prop
  | boolean (value : Bool) : IsData (.boolean value)
  | number {x : Double} (hx : x.isNaN = false) : IsData (.number x)
  | set {members : List Value} (hmembers : ∀ member ∈ members, IsData member) :
      IsData (.set members)

mutual

/-- The expression that the value is shown as: a call of `set` for each set in it. -/
def literal : Value → Value
  | set members => list (symbol "set" :: literals members)
  | value => value

def literals : List Value → List Value
  | [] => []
  | member :: rest => literal member :: literals rest

end

variable {value : Value} {members : List Value} {tokens : List String}

theorem nesting_literal_lt_of_mem {room : Nat} (hroom : (set members).literal.nesting < room + 1) :
    ∀ member ∈ members, member.literal.nesting < room := by
  rw [literal, nesting, nestingOfItems_symbol_cons, Nat.succ_lt_succ_iff] at hroom
  induction members with
  | nil => simp
  | cons first rest ih =>
      rw [literals, nestingOfItems, Nat.max_lt] at hroom
      exact List.forall_mem_cons.mpr ⟨hroom.1, ih hroom.2⟩

/-- Data is shown with room for one level more than its sets nest. -/
theorem IsData.textFault?_eq_none (h : value.IsData) {room : Nat}
    (hroom : value.literal.nesting < room) : value.textFault? room = none := by
  induction h generalizing room with
  | boolean | number =>
      obtain ⟨room, rfl⟩ := Nat.exists_eq_succ_of_ne_zero (Nat.ne_zero_of_lt hroom)
      rfl
  | @set members _ ih =>
      obtain ⟨room, rfl⟩ := Nat.exists_eq_succ_of_ne_zero (Nat.ne_zero_of_lt hroom)
      rw [textFault?]
      exact textFaultOfItems?_eq_none fun member hmember =>
        ih member hmember (nesting_literal_lt_of_mem hroom member hmember)

/-- Data is shallow where sets take their members, for the sets inside have taken theirs. -/
theorem IsData.tooDeepForMember_eq_false (h : value.IsData) {room : Nat} (hroom : 0 < room) :
    value.tooDeepForMember room = false := by
  obtain ⟨room, rfl⟩ := Nat.exists_eq_succ_of_ne_zero (Nat.ne_of_gt hroom)
  cases h <;> rfl

theorem someTooDeepForMember_eq_false {values : List Value} {room : Nat}
    (hvalues : ∀ value ∈ values, value.tooDeepForMember room = false) :
    someTooDeepForMember room values = false := by
  induction values with
  | nil => cases room <;> rfl
  | cons value rest ih =>
      rw [someTooDeepForMember, Bool.or_eq_false_iff]
      exact ⟨hvalues value List.mem_cons_self,
        ih fun other hother => hvalues other (List.mem_cons_of_mem value hother)⟩

theorem scansTo_set {pieces : List (List String)}
    (hmembers : List.Forall₂ ScansTo members pieces) :
    (set members).ScansTo ("\x7b" :: pieces.flatten ++ ["\x7d"]) := by
  intro text _
  rw [chars_set, List.cons_append, List.append_assoc, List.singleton_append,
    scan_enclosed hmembers (by decide) (by decide)]
  simp

/-- The text of the value is scanned to the tokens, and wherever these stand they spell what the
value is shown as. -/
def WrittenAs (value : Value) (tokens : List String) : Prop :=
  value.ScansTo tokens ∧ ∀ start, Derives start tokens value.literal

theorem exists_pieces_of_written
    (hmembers : ∀ member ∈ members, ∃ tokens, member.WrittenAs tokens) :
    ∃ pieces, List.Forall₂ ScansTo members pieces ∧
      ∀ start, DerivesEach start pieces.flatten (literals members) := by
  induction members with
  | nil => exact ⟨[], .nil, fun _ => .nil⟩
  | cons first rest ih =>
      obtain ⟨tokens, hscans, hderives⟩ := hmembers first List.mem_cons_self
      obtain ⟨pieces, hpieces, hrest⟩ :=
        ih fun member hmember => hmembers member (List.mem_cons_of_mem first hmember)
      exact ⟨tokens :: pieces, .cons hscans hpieces, fun start => .cons (hderives start) (hrest _)⟩

theorem IsData.exists_written (h : value.IsData) : ∃ tokens, value.WrittenAs tokens := by
  induction h with
  | boolean value =>
      refine ⟨_, scansTo_of_isWord (isWord_boolean value), fun start => ?_⟩
      cases value with
      | false => exact @Derives.atom start "false" (by decide)
      | true => exact @Derives.atom start "true" (by decide)
  | @number x hx =>
      refine ⟨[x.text], scansTo_of_isWord (isWord_number x), fun start => ?_⟩
      have hatom := @Derives.atom start x.text (not_reserved_number x)
      rwa [atomOfToken_text, Double.marked_of_isNaN_eq_false hx] at hatom
  | set _ ih =>
      obtain ⟨pieces, hscans, hderives⟩ := exists_pieces_of_written ih
      exact ⟨_, scansTo_set hscans, fun start => .curly (hderives (start + 1))⟩

/-- The text of data is parsed to the calls it is sugar for. -/
theorem IsData.parse_text (h : value.IsData) {limit : Nat}
    (hlimit : value.literal.nesting ≤ limit) (payload : Nat) :
    ∃ position, parse limit payload (tokenize value.text) =
      .ok { expr := value.literal, rest := [], position := position } := by
  obtain ⟨tokens, hscans, hderives⟩ := h.exists_written
  rw [tokenize_text_of_scansTo hscans]
  exact ⟨_, parse_eq_ok_iff.mpr ⟨tokens, by simp, hderives payload, hlimit, rfl⟩⟩

end Value

open Value

/-- Values that are distinct make a set of their own kind: each is taken, and nothing is printed. -/
theorem outcome_applyBuiltin_set {members : List Value} (hmembers : (Value.set members).Distinct)
    {room : Nat} (hroom : someTooDeepForMember room members = false) (machine : Machine) :
    (applyBuiltin room .set (.list members)).outcome machine =
      (.ok (.set members), machine.skip 1) := by
  have hresult : Builtin.resultOfAll machine.next .set (.list members) = .ok (.set members) :=
    congrArg (fun kept => Except.ok (Value.set kept)) (Members.ofList_eq_self hmembers)
  have hnew : Builtin.newMembers .set (.list members) = members := rfl
  rw [applyBuiltin_eq, outcome_bind, outcome_fresh]
  dsimp only
  rw [hresult, hnew]
  dsimp only
  rw [if_neg (by rw [hroom]; exact Bool.false_ne_true), if_neg (by decide)]
  rfl

/-- Wherever `set` stands for the builtin, evaluating what the value is shown as gives the value and
draws identities, and that is all. -/
def Restores (room : Nat) (value : Value) : Prop :=
  ∀ machine : Machine, machine.chain.lookup? "set" = some (.builtin .set) →
    ∃ drawn, (evaluate room value.literal).outcome machine = (.ok value, machine.skip drawn)

theorem inTurn_literals {room : Nat} {members : List Value}
    (hmembers : ∀ member ∈ members, Restores room member) {machine : Machine}
    (hset : machine.chain.lookup? "set" = some (.builtin .set)) :
    ∃ drawn, InTurn (evaluate room) machine (literals members) members (machine.skip drawn) := by
  induction members generalizing machine with
  | nil => exact ⟨0, .nil⟩
  | cons first rest ih =>
      obtain ⟨drawn, hfirst⟩ := hmembers first List.mem_cons_self machine hset
      obtain ⟨more, hrest⟩ := @ih
        (fun member hmember => hmembers member (List.mem_cons_of_mem first hmember))
        (machine.skip drawn) hset
      have hskip : (machine.skip drawn).skip more = machine.skip (drawn + more) := by
        rw [Machine.skip, Machine.skip, Machine.skip, Nat.add_assoc]
      exact ⟨drawn + more, .cons hfirst (hskip ▸ hrest)⟩

theorem Value.IsData.restores {value : Value} (h : value.IsData) (hdistinct : value.Distinct)
    {room : Nat} (hroom : value.literal.nesting < room) : Restores room value := by
  induction h generalizing room with
  | boolean | number =>
      obtain ⟨room, rfl⟩ := Nat.exists_eq_succ_of_ne_zero (Nat.ne_zero_of_lt hroom)
      exact fun machine _ => ⟨0, rfl⟩
  | @set members hmembers ih =>
      intro machine hset
      obtain ⟨room, rfl⟩ := Nat.exists_eq_succ_of_ne_zero (Nat.ne_zero_of_lt hroom)
      have hnesting := nesting_literal_lt_of_mem hroom
      have hcall : evaluate (room + 1) (Value.set members).literal =
          call (evaluate room) room "set" (literals members) :=
        evaluate_of_call (by decide) room (literals members)
      obtain ⟨drawn, hturn⟩ := inTurn_literals (fun member hmember =>
        ih member hmember (hdistinct.of_mem_set member hmember) (hnesting member hmember)) hset
      -- a member that is a set counts as shallow, whatever is inside it
      have hshallow : someTooDeepForMember room members = false :=
        someTooDeepForMember_eq_false fun member hmember =>
          (hmembers member hmember).tooDeepForMember_eq_false
            (Nat.zero_lt_of_lt (hnesting member hmember))
      refine ⟨drawn + 1, ?_⟩
      rw [hcall, outcome_call_of_inTurn hset rfl hturn]
      exact outcome_applyBuiltin_set hdistinct hshallow (machine.skip drawn)

/-- **Printed sets evaluate back to themselves.** Data whose sets are without repetition can be
shown where there is room for its nesting. Its text is parsed to one expression, and wherever `set`
stands for the builtin, evaluating this expression gives the very same value: the same members in
the same order, down to the sign of a zero. -/
theorem printed_set_evaluates_to_itself {value : Value} (hdata : value.IsData)
    (hdistinct : value.Distinct) {limit room : Nat} (hlimit : value.literal.nesting ≤ limit)
    (hroom : value.literal.nesting < room) (payload : Nat) {machine : Machine}
    (hset : machine.chain.lookup? "set" = some (.builtin .set)) :
    value.textFault? room = none ∧ ∃ expr position drawn,
      parse limit payload (tokenize value.text) =
        .ok { expr := expr, rest := [], position := position } ∧
      (evaluate room expr).outcome machine = (.ok value, machine.skip drawn) := by
  obtain ⟨position, hparse⟩ := hdata.parse_text hlimit payload
  obtain ⟨drawn, heval⟩ := hdata.restores hdistinct hroom machine hset
  exact ⟨hdata.textFault?_eq_none hroom, value.literal, position, drawn, hparse, heval⟩

/-- A set with a negative zero and sets inside. -/
theorem printed_set_evaluates_to_itself_nested :
    let value := Value.set [.number (.zero true), .set [.boolean true, .set []], .boolean false]
    let machine : Machine := { chain := { own := initialFrame } }
    value.IsData ∧ value.Distinct ∧ value.literal.nesting ≤ 3 ∧
      machine.chain.lookup? "set" = some (.builtin .set) ∧
      value.text = "\x7b-0 \x7btrue \x7b\x7d\x7d false\x7d" ∧ value.textFault? 4 = none ∧
      ∃ expr position drawn, parse 3 7 (tokenize value.text) =
          .ok { expr := expr, rest := [], position := position } ∧
        (evaluate 4 expr).outcome machine = (.ok value, machine.skip drawn) := by
  intro value machine
  have hempty : (Value.set []).IsData := .set nofun
  have hinner : (Value.set [.boolean true, .set []]).IsData :=
    .set (List.forall_mem_cons.mpr ⟨.boolean true, List.forall_mem_singleton.mpr hempty⟩)
  have hdata : value.IsData := .set (List.forall_mem_cons.mpr ⟨.number (by decide +kernel),
    List.forall_mem_cons.mpr ⟨hinner, List.forall_mem_singleton.mpr (.boolean false)⟩⟩)
  have hdistinct (x : Double) :
      (Value.set [.number x, .set [.boolean true, .set []], .boolean false]).Distinct := by
    simp [distinct_set_iff, similar_number_iff, similar_boolean_iff, similar_set_iff]
  have htext : (Value.set [.number (.zero true), .set [.boolean true, .set []],
      .boolean false]).text = "\x7b-0 \x7btrue \x7b\x7d\x7d false\x7d" := by
    decide +kernel
  obtain ⟨hshown, hreads⟩ := @printed_set_evaluates_to_itself value hdata
    (hdistinct (.zero true)) 3 4 (Nat.le_refl 3) (Nat.lt_succ_self 3) 7 machine rfl
  exact ⟨hdata, hdistinct (.zero true), Nat.le_refl 3, rfl, htext, hshown, hreads⟩

end SetLisp
