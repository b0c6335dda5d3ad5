import Mathlib.Tactic

/-!
# Regular expressions and quoted text

A pattern is read from the left. A backslash before a metacharacter is that character itself, any
other metacharacter is an operator; a backslash before anything else is no part of this dialect.
`parse` goes through the tokens once with a stack of open groups. `ends` says where a match that
begins at a position can end, and `found` looks for a match anywhere; characters are compared after
`fold`, which is a case folding or the identity.

`quote` puts a backslash before every metacharacter. The lemmas about it say that the quoted text
is read back as itself, whatever follows it, and that it is found exactly where the text is.
-/

set_option autoImplicit false

namespace CloudOps.Computation

/-- An expression over characters. -/
inductive Regex
  | empty
  | char (c : Char)
  | any
  | set (negated : Bool) (members : List Char)
  | start
  | finish
  | seq (r r' : Regex)
  | alt (r r' : Regex)
  | star (r : Regex)

namespace Regex

/-! ## Reading -/

inductive Token
  | literal (c : Char)
  | operator (c : Char)
  deriving DecidableEq

def metacharacters : List Char :=
  ['.', '*', '+', '?', '^', '$', '{', '}', '(', ')', '|', '[', ']', '\\']

/-- The tokens of a pattern, `none` where a backslash has nothing to escape. -/
def read : List Char → Option (List Token)
  | [] => some []
  | '\\' :: c :: rest => if c ∈ metacharacters then (read rest).map (.literal c :: ·) else none
  | ['\\'] => none
  | c :: rest =>
    (read rest).map ((if c ∈ metacharacters then .operator c else .literal c) :: ·)

/-- A group that is open: its alternatives so far, and the items of the last one, newest first. -/
structure Group where
  alternatives : List Regex
  items : List Regex

/-- What the parser is in the middle of. -/
inductive Mode
  | items
  | set (negated : Bool) (members : List Char)
  | bounds (text : List Char)

structure ParseState where
  outer : List Group
  group : Group
  mode : Mode

/-- Items in sequence, from the newest back. -/
def sequence (items : List Regex) : Regex := items.foldl (fun r item => .seq item r) .empty

def Group.regex (group : Group) : Regex :=
  group.alternatives.foldl (fun r alternative => .alt alternative r) (sequence group.items)

def exactly (r : Regex) : ℕ → Regex
  | 0 => .empty
  | n + 1 => .seq r (exactly r n)

def atMost (r : Regex) : ℕ → Regex
  | 0 => .empty
  | n + 1 => .alt (.seq r (atMost r n)) .empty

def readNumber (digits : List Char) : Option ℕ :=
  if digits = [] then none else digits.foldlM (fun n c =>
    if c.isDigit then some (10 * n + (c.toNat - '0'.toNat)) else none) 0

/-- The repetition written between braces. -/
def readBounds (text : List Char) : Option (Regex → Regex) :=
  match text.splitOn ',' with
  | [m] => do
    let m ← readNumber m
    return fun r => exactly r m
  | [m, []] => do
    let m ← readNumber m
    return fun r => .seq (exactly r m) (.star r)
  | [m, n] => do
    let m ← readNumber m
    let n ← readNumber n
    if m ≤ n then return fun r => .seq (exactly r m) (atMost r (n - m)) else none
  | _ => none

namespace ParseState

def push (s : ParseState) (r : Regex) : ParseState :=
  { s with group := { s.group with items := r :: s.group.items }, mode := .items }

/-- A repetition of the last item. -/
def modify (s : ParseState) (f : Regex → Regex) : Option ParseState :=
  match s.group.items with
  | [] => none
  | r :: items => some { s with group := { s.group with items := f r :: items }, mode := .items }

/-- An operator between items. -/
def operate (s : ParseState) : Char → Option ParseState
  | '.' => some (s.push .any)
  | '^' => some (s.push .start)
  | '$' => some (s.push .finish)
  | '*' => s.modify .star
  | '+' => s.modify fun r => .seq r (.star r)
  | '?' => s.modify fun r => .alt r .empty
  | '{' => some { s with mode := .bounds [] }
  | '[' => some { s with mode := .set false [] }
  | '|' => some { s with
      group := ⟨sequence s.group.items :: s.group.alternatives, []⟩ }
  | '(' => some { s with outer := s.group :: s.outer, group := ⟨[], []⟩ }
  | ')' => match s.outer with
    | [] => none
    | group :: outer =>
      some ⟨outer, { group with items := s.group.regex :: group.items }, .items⟩
  | ']' => some (s.push (.char ']'))
  | '}' => some (s.push (.char '}'))
  | _ => none

def step (s : ParseState) (token : Token) : Option ParseState :=
  match s.mode, token with
  | .items, .literal c => some (s.push (.char c))
  | .items, .operator c => s.operate c
  | .set negated members, .operator ']' => some (s.push (.set negated members.reverse))
  | .set false [], .operator '^' => some { s with mode := .set true [] }
  | .set negated members, .operator c => some { s with mode := .set negated (c :: members) }
  | .set negated members, .literal c => some { s with mode := .set negated (c :: members) }
  | .bounds text, .operator '}' => (readBounds text.reverse).bind s.modify
  | .bounds text, .literal c => some { s with mode := .bounds (c :: text) }
  | .bounds _, .operator _ => none

/-- The expression, if no group, set or repetition is left open. -/
def finish (s : ParseState) : Option Regex :=
  match s.mode, s.outer with
  | .items, [] => some s.group.regex
  | _, _ => none

end ParseState

/-- The expression of a list of tokens, `none` where it is ill-formed. -/
def parse (tokens : List Token) : Option Regex :=
  (tokens.foldlM ParseState.step ⟨[], ⟨[], []⟩, .items⟩).bind ParseState.finish

/-- The expression of a pattern. -/
def compile (pattern : List Char) : Option Regex := (read pattern).bind parse

/-! ## Matching -/

/-- Membership in a set, where a hyphen between two characters is a range. -/
def inSet (same : Char → Bool) (c : Char) : List Char → Bool
  | a :: '-' :: b :: members => (a ≤ c && c ≤ b) || inSet same c members
  | a :: members => same a || inSet same c members
  | [] => false

/-- The positions reached by at most `fuel` steps. -/
def reached (next : ℕ → List ℕ) : ℕ → ℕ → List ℕ
  | 0, i => [i]
  | fuel + 1, i => i :: (next i).flatMap (reached next fuel)

/-- Where a match that begins at position `i` can end. -/
def ends (fold : Char → Char) (text : List Char) : Regex → ℕ → List ℕ
  | .empty, i => [i]
  | .char c, i => if text[i]?.any (fold · == fold c) then [i + 1] else []
  | .any, i => if text[i]?.any (· != '\n') then [i + 1] else []
  | .set negated members, i =>
    if text[i]?.any fun d => inSet (fold d == fold ·) d members != negated then [i + 1] else []
  | .start, i => if i = 0 then [i] else []
  | .finish, i => if i = text.length then [i] else []
  | .seq r r', i => (r.ends fold text i).flatMap (r'.ends fold text)
  | .alt r r', i => r.ends fold text i ++ r'.ends fold text i
  | .star r, i => reached (r.ends fold text) text.length i

/-- There is a match somewhere in the text. -/
def found (fold : Char → Char) (text : List Char) (r : Regex) : Bool :=
  (List.range (text.length + 1)).any fun i => !(r.ends fold text i).isEmpty

/-! ## Quoted text -/

/-- A text with a backslash before each metacharacter. -/
def quote (text : List Char) : List Char :=
  text.flatMap fun c => if c ∈ metacharacters then ['\\', c] else [c]

/-- The characters one after the other. -/
def literals (text : List Char) : Regex := text.foldr (fun c r => .seq (.char c) r) .empty

section Quote

variable {fold : Char → Char} {text cs rest : List Char} {c : Char} {i j : ℕ}

/-- An escaped character is read as itself. -/
theorem read_escaped (hc : c ∈ metacharacters) :
    read ('\\' :: c :: rest) = (read rest).map (.literal c :: ·) := by
  rw [read, if_pos hc]

/-- A plain character is read as itself. -/
theorem read_plain (hc : c ∉ metacharacters) :
    read (c :: rest) = (read rest).map (.literal c :: ·) := by
  have hne : c ≠ '\\' := by
    rintro rfl
    exact hc (by decide)
  rw [read, if_neg hc]
  · rintro _ _ rfl
    exact fun _ => hne rfl
  · rintro rfl
    exact fun _ => hne rfl

/-- **Quoted text is read back as itself**, whatever follows it. -/
theorem read_quote_append (text rest : List Char) :
    read (quote text ++ rest) = (read rest).map (text.map .literal ++ ·) := by
  induction text with
  | nil => simp [quote]
  | cons c text ih =>
      have hquote : quote (c :: text) =
          (if c ∈ metacharacters then ['\\', c] else [c]) ++ quote text := List.flatMap_cons
      rw [hquote, List.append_assoc]
      by_cases hc : c ∈ metacharacters
      · rw [if_pos hc]
        show read ('\\' :: c :: (quote text ++ rest)) = _
        rw [read_escaped hc, ih, Option.map_map]
        rfl
      · rw [if_neg hc]
        show read (c :: (quote text ++ rest)) = _
        rw [read_plain hc, ih, Option.map_map]
        rfl

/-- A quoted text is read as itself. -/
theorem read_quote (text : List Char) : read (quote text) = some (text.map .literal) := by
  simpa [read] using read_quote_append text []

/-- Literal tokens are pushed one after the other. -/
theorem foldlM_literals {s : ParseState} (hs : s.mode = .items) :
    (cs.map Token.literal).foldlM ParseState.step s =
      some { s with group := { s.group with
        items := (cs.map Regex.char).reverse ++ s.group.items } } := by
  induction cs generalizing s with
  | nil => rfl
  | cons c cs ih =>
      have hstep : s.step (.literal c) = some (s.push (.char c)) := by
        unfold ParseState.step
        rw [hs]
      rw [List.map_cons, List.foldlM_cons, hstep]
      show (cs.map Token.literal).foldlM ParseState.step (s.push (.char c)) = _
      rw [ih rfl]
      simp [ParseState.push, hs]

/-- Literal tokens are well formed: they stand for their characters. -/
theorem parse_literals (text : List Char) :
    parse (text.map .literal) = some (literals text) := by
  unfold parse
  rw [foldlM_literals rfl]
  show some (sequence ((text.map Regex.char).reverse ++ [])) = some (literals text)
  rw [List.append_nil, sequence, List.foldl_reverse, List.foldr_map, literals]

/-- **Quoted text cannot be ill-formed.** -/
theorem compile_quote (text : List Char) : compile (quote text) = some (literals text) := by
  rw [compile, read_quote]
  exact parse_literals text

/-- A character matches itself and nothing else, up to case. -/
theorem mem_ends_char : j ∈ (char c).ends fold text i ↔
    j = i + 1 ∧ ∃ d, text[i]? = some d ∧ fold d = fold c := by
  rw [ends]
  cases htext : text[i]? with
  | none => simp
  | some d => by_cases hd : fold d = fold c <;> simp [hd]

/-- Where a text is matched: where it stands, up to folding. -/
theorem mem_ends_literals : j ∈ (literals cs).ends fold text i ↔
    j = i + cs.length ∧ cs.map fold <+: (text.drop i).map fold := by
  induction cs generalizing i with
  | nil => simp [literals, ends]
  | cons c cs ih =>
      have hseq : (literals (c :: cs)).ends fold text i =
          ((char c).ends fold text i).flatMap ((literals cs).ends fold text) := rfl
      rw [hseq, List.mem_flatMap]
      constructor
      · rintro ⟨k, hk, hj⟩
        obtain ⟨rfl, d, hd, hsame⟩ := mem_ends_char.mp hk
        obtain ⟨rfl, hprefix⟩ := ih.mp hj
        refine ⟨by rw [List.length_cons]; omega, ?_⟩
        rw [List.drop_eq_getElem?_toList_append, hd]
        show fold c :: cs.map fold <+: fold d :: (text.drop (i + 1)).map fold
        rw [hsame]
        exact List.cons_prefix_cons.mpr ⟨rfl, hprefix⟩
      · rintro ⟨rfl, hprefix⟩
        cases hd : text[i]? with
        | none =>
            rw [List.drop_eq_nil_of_le (List.getElem?_eq_none_iff.mp hd)] at hprefix
            simp at hprefix
        | some d =>
            rw [List.drop_eq_getElem?_toList_append, hd] at hprefix
            obtain ⟨hsame, hrest⟩ := List.cons_prefix_cons.mp hprefix
            refine ⟨i + 1, mem_ends_char.mpr ⟨rfl, d, hd, hsame.symm⟩, ih.mpr ⟨?_, hrest⟩⟩
            rw [List.length_cons]
            omega

/-- **A text is found where it is contained**, up to folding. -/
theorem found_literals : found fold text (literals cs) = true ↔
    cs.map fold <:+: text.map fold := by
  have hfound : found fold text (literals cs) = true ↔
      ∃ i ≤ text.length, cs.map fold <+: (text.drop i).map fold := by
    unfold found
    rw [List.any_eq_true]
    constructor
    · rintro ⟨i, hi, hends⟩
      obtain ⟨j, hj⟩ := List.exists_mem_of_ne_nil _ (by simpa using hends)
      exact ⟨i, by simpa [Nat.lt_succ_iff] using hi, (mem_ends_literals.mp hj).2⟩
    · rintro ⟨i, hi, hprefix⟩
      have hj : i + cs.length ∈ (literals cs).ends fold text i :=
        mem_ends_literals.mpr ⟨rfl, hprefix⟩
      refine ⟨i, by simpa [Nat.lt_succ_iff] using hi, ?_⟩
      simpa using List.ne_nil_of_mem hj
  rw [hfound, List.infix_iff_prefix_suffix]
  constructor
  · rintro ⟨i, -, hprefix⟩
    refine ⟨_, hprefix, ?_⟩
    rw [List.map_drop]
    exact List.drop_suffix _ _
  · rintro ⟨t, hprefix, hsuffix⟩
    have hle : (text.map fold).length - t.length ≤ text.length := by
      rw [List.length_map]
      omega
    refine ⟨_, hle, ?_⟩
    rw [List.map_drop, ← List.suffix_iff_eq_drop.mp hsuffix]
    exact hprefix

end Quote

/-- Operators are operators where they are not escaped. -/
example : ((compile "^a+(b|c)?\\.[0-9]{2}$".toList).map fun r =>
    ["aab.07", "a.42", "ab.7", "aab,07"].map fun text => r.found id text.toList) =
      some [true, true, false, false] := by
  decide +kernel

end Regex

end CloudOps.Computation
