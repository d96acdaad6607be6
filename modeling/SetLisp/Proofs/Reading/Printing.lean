import Mathlib.Data.List.Forall2
import SetLisp.Proofs.Reading.Expression
import SetLisp.Value.Text

namespace SetLisp

namespace Value

theorem chars_number (x : Double) : (number x).chars = x.chars := rfl

theorem toList_text (value : Value) : value.text.toList = value.chars :=
  String.toList_ofList

theorem text_symbol (name : String) : (symbol name).text = name :=
  String.ofList_toList

theorem chars_list (items : List Value) :
    (list items).chars = '(' :: (charsOfItems items ++ [')']) := rfl

theorem chars_set (members : List Value) :
    (set members).chars = '\x7b' :: (charsOfItems members ++ ['\x7d']) := rfl

theorem charsOfItems_cons (item : Value) (rest : List Value) :
    charsOfItems (item :: rest) = item.chars ++ charsOfMore rest := rfl

theorem charsOfMore_cons (item : Value) (rest : List Value) :
    charsOfMore (item :: rest) = ' ' :: (item.chars ++ charsOfMore rest) := rfl

mutual

/-- The expression with one and the same mark for whatever is not a number. -/
def unmarked : Value → Value
  | number x => number (x.marked 0)
  | list items => list (unmarkedItems items)
  | value => value

def unmarkedItems : List Value → List Value
  | [] => []
  | item :: rest => unmarked item :: unmarkedItems rest

end

theorem unmarkedItems_eq_map (items : List Value) : unmarkedItems items = items.map unmarked := by
  induction items with
  | nil => rfl
  | cons item rest ih => rw [unmarkedItems, ih, List.map_cons]

mutual

theorem nesting_unmarked : ∀ value : Value, value.unmarked.nesting = value.nesting
  | list items => congrArg (· + 1) (nestingOfItems_unmarked items)
  | boolean _ | number _ | symbol _ | set _ | builtin _ | lambda .. | foreign .. => rfl

theorem nestingOfItems_unmarked :
    ∀ items : List Value, nestingOfItems (unmarkedItems items) = nestingOfItems items
  | [] => rfl
  | item :: rest => by
      rw [unmarkedItems, nestingOfItems, nestingOfItems, nesting_unmarked item,
        nestingOfItems_unmarked rest]

end

mutual

/-- Marks are not shown. -/
theorem chars_unmarked : ∀ value : Value, value.unmarked.chars = value.chars
  | number x => by rw [unmarked, chars_number, chars_number, Double.chars_marked]
  | list items => by rw [unmarked, chars_list, chars_list, charsOfItems_unmarked items]
  | boolean _ | symbol _ | set _ | builtin _ | lambda .. | foreign .. => rfl

theorem charsOfItems_unmarked :
    ∀ items : List Value, charsOfItems (unmarkedItems items) = charsOfItems items
  | [] => rfl
  | item :: rest => by
      rw [unmarkedItems, charsOfItems_cons, charsOfItems_cons, chars_unmarked item,
        charsOfMore_unmarked rest]

theorem charsOfMore_unmarked :
    ∀ items : List Value, charsOfMore (unmarkedItems items) = charsOfMore items
  | [] => rfl
  | item :: rest => by
      rw [unmarkedItems, charsOfMore_cons, charsOfMore_cons, chars_unmarked item,
        charsOfMore_unmarked rest]

end

theorem text_unmarked (value : Value) : value.unmarked.text = value.text :=
  congrArg String.ofList (chars_unmarked value)

mutual

/-- The tokens of the text of an expression. -/
def tokens : Value → List String
  | list items => "(" :: tokensOfItems items ++ [")"]
  | value => [value.text]

def tokensOfItems : List Value → List String
  | [] => []
  | item :: rest => tokens item ++ tokensOfItems rest

end

end Value

theorem isWord_boolean (value : Bool) : IsWord (Value.boolean value).text := by
  cases value with
  | false => exact ⟨by decide, forall_mem_of_all (by decide)⟩
  | true => exact ⟨by decide, forall_mem_of_all (by decide)⟩

theorem isWord_number (x : Double) : IsWord x.text := by
  refine ⟨?_, ?_⟩
  · rw [Double.text, String.toList_ofList]
    cases x with
    | nan payload => simp [Double.chars]
    | infinite negative => simp [Double.chars]
    | finite negative units hgrid =>
        obtain ⟨c, rest, hplain, -⟩ := Decimal.exists_cons_plain (Double.shortest units)
        simp [Double.chars, hplain]
  · rw [Double.text, String.toList_ofList]
    intro c hc
    have hchar := Double.isNumberChar_of_mem_chars c hc
    exact ⟨hchar.isBracket_eq_false, hchar.isBlank_eq_false⟩

namespace Token

/-- Whether a token in front of the text ends there. -/
def Delimits (text : List Char) : Prop :=
  ∀ c ∈ text.head?, isBracket c = true ∨ Text.isBlank c = true

theorem scanFrom_of_delimits {text : List Char} (htext : Delimits text) (run : List Char) :
    scanFrom run text = ofRun run ++ scanFrom [] text := by
  have hempty : ofRun [] = [] := rfl
  cases text with
  | nil => rw [scanFrom, scanFrom, hempty, List.append_nil]
  | cons c rest =>
      rw [scanFrom, scanFrom]
      split
      · rw [hempty, List.nil_append]
      · next hbracket =>
          rw [if_pos ((htext c rfl).resolve_left hbracket),
            if_pos ((htext c rfl).resolve_left hbracket), hempty, List.nil_append]

theorem scanFrom_append {word : List Char}
    (hword : ∀ c ∈ word, isBracket c = false ∧ Text.isBlank c = false) (run text : List Char) :
    scanFrom run (word ++ text) = scanFrom (word.reverse ++ run) text := by
  induction word generalizing run with
  | nil => rfl
  | cons c rest ih =>
      obtain ⟨hbracket, hblank⟩ := hword c List.mem_cons_self
      have hrest := ih (fun d hd => hword d (List.mem_cons_of_mem c hd)) (c :: run)
      rw [List.cons_append, scanFrom, hbracket, hblank, if_neg Bool.false_ne_true,
        if_neg Bool.false_ne_true, hrest, List.reverse_cons, List.append_assoc]
      rfl

theorem scan_word {word : String} (hword : IsWord word) {text : List Char}
    (htext : Delimits text) : scan (word.toList ++ text) = word.toList :: scan text := by
  obtain ⟨hne, hchars⟩ := hword
  have hrun : ofRun word.toList.reverse = [word.toList] := by
    rw [ofRun, if_neg (by simpa using hne), List.reverse_reverse]
  rw [scan, scanFrom_append hchars, List.append_nil, scanFrom_of_delimits htext, hrun]
  rfl

theorem scan_bracket {c : Char} (hc : isBracket c = true) (text : List Char) :
    scan (c :: text) = [c] :: scan text := by
  rw [scan, scanFrom, if_pos hc]
  rfl

theorem scan_space (text : List Char) : scan (' ' :: text) = scan text := rfl

end Token

open Token

namespace Value

/-- The text of the value is scanned to the tokens, whatever follows it. -/
def ScansTo (value : Value) (tokens : List String) : Prop :=
  ∀ text, Delimits text → scan (value.chars ++ text) = tokens.map String.toList ++ scan text

theorem scansTo_of_isWord {value : Value} (hword : IsWord value.text) :
    value.ScansTo [value.text] := by
  intro text htext
  have hscan := scan_word hword htext
  rw [toList_text] at hscan
  rw [hscan, List.map_singleton, toList_text, List.singleton_append]

section Items

variable {items : List Value} {pieces : List (List String)}

theorem scan_charsOfMore (hitems : List.Forall₂ ScansTo items pieces) {text : List Char}
    (htext : Delimits text) :
    scan (charsOfMore items ++ text) = pieces.flatten.map String.toList ++ scan text := by
  induction hitems with
  | nil => rfl
  | @cons item piece rest pieces hitem _ ih =>
      have hdelimits : Delimits (charsOfMore rest ++ text) := by
        cases rest with
        | nil => exact htext
        | cons other more =>
            rintro c ⟨⟩
            exact .inr (by decide)
      rw [charsOfMore_cons, List.cons_append, scan_space, List.append_assoc, hitem _ hdelimits,
        ih, List.flatten_cons, List.map_append, List.append_assoc]

/-- Items between brackets are scanned one after the other. -/
theorem scan_enclosed (hitems : List.Forall₂ ScansTo items pieces) {opener closer : Char}
    (hopener : isBracket opener = true) (hcloser : isBracket closer = true) (text : List Char) :
    scan (opener :: (charsOfItems items ++ closer :: text)) =
      [opener] :: (pieces.flatten.map String.toList ++ [closer] :: scan text) := by
  have hclose : Delimits (closer :: text) := by
    rintro c ⟨⟩
    exact .inl hcloser
  -- the first item has no space in front of it, which scanning does not see
  have hitemsText : scan (charsOfItems items ++ closer :: text) =
      pieces.flatten.map String.toList ++ scan (closer :: text) := by
    rw [← scan_charsOfMore hitems hclose]
    cases items with
    | nil => rfl
    | cons item rest => rw [charsOfItems_cons, charsOfMore_cons, List.cons_append, scan_space]
  rw [scan_bracket hopener, hitemsText, scan_bracket hcloser]

theorem scansTo_list (hitems : List.Forall₂ ScansTo items pieces) :
    (list items).ScansTo ("(" :: pieces.flatten ++ [")"]) := by
  intro text _
  rw [chars_list, List.cons_append, List.append_assoc, List.singleton_append,
    scan_enclosed hitems (by decide) (by decide)]
  simp

end Items

theorem tokenize_text_of_scansTo {value : Value} {tokens : List String}
    (h : value.ScansTo tokens) : tokenize value.text = tokens := by
  have hscan := h [] (by simp [Delimits])
  have hnil : scan [] = [] := rfl
  rw [List.append_nil, hnil, List.append_nil] at hscan
  rw [tokenize, toList_text, hscan, List.map_map]
  exact List.map_id'' (fun token => String.ofList_toList) tokens

theorem tokensOfItems_eq_flatten (items : List Value) :
    tokensOfItems items = (items.map tokens).flatten := by
  induction items with
  | nil => rfl
  | cons item rest ih => rw [tokensOfItems, ih, List.map_cons, List.flatten_cons]

theorem IsExpression.scansTo {expr : Value} (h : expr.IsExpression) :
    expr.ScansTo expr.tokens := by
  induction h with
  | boolean value => exact scansTo_of_isWord (isWord_boolean value)
  | number value => exact scansTo_of_isWord (isWord_number value)
  | @symbol name hname =>
      refine scansTo_of_isWord ?_
      rw [text_symbol]
      exact hname.isWord
  | @list items _ ih =>
      rw [tokens, tokensOfItems_eq_flatten]
      exact scansTo_list (List.forall₂_map_right_iff.mpr (List.forall₂_same.mpr ih))

theorem IsExpression.tokenize_text {expr : Value} (h : expr.IsExpression) :
    tokenize expr.text = expr.tokens :=
  tokenize_text_of_scansTo h.scansTo

/-- The grammar makes the expression of its tokens again, whatever the marks. -/
def Respelled (value : Value) : Prop :=
  ∀ start, ∃ again, Derives start value.tokens again ∧ again.unmarked = value.unmarked

theorem respelled_of_atom {value : Value} (htokens : value.tokens = [value.text])
    (hreserved : value.text ∉ reservedTokens)
    (hatom : ∀ start, (atomOfToken start value.text).unmarked = value.unmarked) :
    value.Respelled := by
  intro start
  rw [htokens]
  exact ⟨_, .atom hreserved, hatom start⟩

theorem derivesEach_tokensOfItems {items : List Value} (hitems : ∀ item ∈ items, item.Respelled)
    (start : Nat) :
    ∃ again, DerivesEach start (tokensOfItems items) again ∧
      unmarkedItems again = unmarkedItems items := by
  induction items generalizing start with
  | nil => exact ⟨[], .nil, rfl⟩
  | cons item rest ih =>
      obtain ⟨first, hfirst, hsame⟩ := hitems item List.mem_cons_self start
      obtain ⟨again, hagain, hsames⟩ :=
        ih (fun other hother => hitems other (List.mem_cons_of_mem item hother))
          (start + item.tokens.length)
      refine ⟨first :: again, .cons hfirst hagain, ?_⟩
      rw [unmarkedItems, unmarkedItems, hsame, hsames]

theorem respelled_list {items : List Value} (hitems : ∀ item ∈ items, item.Respelled) :
    (list items).Respelled := by
  intro start
  obtain ⟨again, hagain, hsames⟩ := derivesEach_tokensOfItems hitems (start + 1)
  refine ⟨_, .round hagain, ?_⟩
  rw [unmarked, unmarked, hsames]

theorem not_reserved_number (x : Double) : x.text ∉ reservedTokens := by
  intro hmem
  have hchars := Double.isNumberChar_of_mem_chars (x := x)
  have hreserved : ∀ token ∈ reservedTokens,
      (token.toList.any fun c => !decide (IsNumberChar c)) = true := by
    decide
  have hother := hreserved _ hmem
  rw [Double.text, String.toList_ofList, List.any_eq_true] at hother
  obtain ⟨c, hc, hother⟩ := hother
  simp [hchars c hc] at hother

theorem IsExpression.respelled {expr : Value} (h : expr.IsExpression) : expr.Respelled := by
  induction h with
  | boolean value =>
      refine respelled_of_atom rfl ?_ fun start => ?_
      · cases value <;> decide
      · cases value <;> rfl
  | number x =>
      refine respelled_of_atom rfl (not_reserved_number x) fun start => ?_
      have hatom : atomOfToken start (Value.number x).text = .number (x.marked start) :=
        atomOfToken_text start x
      rw [hatom, unmarked, unmarked, Double.marked_marked]
  | @symbol name hname =>
      refine respelled_of_atom rfl ?_ fun start => ?_
      · rw [text_symbol]
        exact hname.not_reserved
      · rw [text_symbol, hname.reads]
  | list _ ih => exact respelled_list ih

end Value

end SetLisp
