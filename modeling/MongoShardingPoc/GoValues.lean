import Mathlib.Data.List.Infix
import Mathlib.Data.List.Basic

/-!
# Go strings and errors

A Go `string` is an immutable sequence of bytes and need not hold valid
UTF-8, so strings are modelled as byte lists.  The resolvers read endpoint
strings through two functions of the standard library:

* `strings.Split(s, ",")` cuts at every comma and keeps empty pieces; it is
  the library's `List.splitOn` on bytes;
* `strings.TrimSpace(s)` removes leading and trailing white space as
  `unicode.IsSpace` defines it.  Both its ASCII fast path and its fallback
  through `strings.TrimFunc` stop at the first rune that is not a space, and
  a byte that is not valid UTF-8 decodes to `utf8.RuneError`, which is not a
  space; trimming therefore removes whole UTF-8 encodings of white-space runes
  from either end.

Errors are kept as the `fmt.Errorf` call that built them: its format and its
operand, so that every message of the modelled code can be read off.
-/

namespace MongoShardingPoc.Go

/-- A Go `string`: a sequence of bytes, not necessarily valid UTF-8. -/
abbrev GoString := List UInt8

def comma : UInt8 := 0x2C

/-- `strings.Split(s, sep)` for a one-byte separator. -/
def split (s : GoString) (sep : UInt8) : List GoString :=
  s.splitOn sep

/-! ## White space -/

/-- `utf8.EncodeRune` for a valid rune. -/
def encodeRune (r : Nat) : GoString :=
  if r < 0x80 then [r.toUInt8]
  else if r < 0x800 then [(0xC0 ||| r >>> 6).toUInt8, (0x80 ||| r &&& 0x3F).toUInt8]
  else if r < 0x10000 then
    [(0xE0 ||| r >>> 12).toUInt8, (0x80 ||| r >>> 6 &&& 0x3F).toUInt8,
      (0x80 ||| r &&& 0x3F).toUInt8]
  else
    [(0xF0 ||| r >>> 18).toUInt8, (0x80 ||| r >>> 12 &&& 0x3F).toUInt8,
      (0x80 ||| r >>> 6 &&& 0x3F).toUInt8, (0x80 ||| r &&& 0x3F).toUInt8]

/-- The runes of `unicode.IsSpace`: `'\t'`, `'\n'`, `'\v'`, `'\f'`, `'\r'`,
`' '`, U+0085 and U+00A0 below `MaxLatin1`, and above it the `White_Space`
table: U+1680, U+2000 to U+200A, U+2028, U+2029, U+202F, U+205F, U+3000. -/
def whiteSpace : List Nat :=
  [0x09, 0x0A, 0x0B, 0x0C, 0x0D, 0x20, 0x85, 0xA0, 0x1680] ++
    (List.range 11).map (0x2000 + ·) ++ [0x2028, 0x2029, 0x202F, 0x205F, 0x3000]

/-- The UTF-8 encodings of the white-space runes. -/
def spaceEncodings : List GoString :=
  whiteSpace.map encodeRune

/-- Width of the first of `codes` that `s` starts with, `0` when none. -/
def codeWidth (codes : List GoString) (s : GoString) : Nat :=
  match codes.find? (·.isPrefixOf s) with
  | some code => code.length
  | none => 0

/-- Drop codes from the front of `s` while one of them starts it.  Every code
is non-empty, so `s.length` rounds of fuel always suffice. -/
def dropCodes (codes : List GoString) : Nat → GoString → GoString
  | 0, s => s
  | fuel + 1, s =>
    match codeWidth codes s with
    | 0 => s
    | width => dropCodes codes fuel (s.drop width)

/-- `strings.TrimSpace`: drop white space from the front, then from the back
(read backwards, an encoding is its reversed bytes). -/
def trimSpace (s : GoString) : GoString :=
  let left := dropCodes spaceEncodings s.length s
  (dropCodes (spaceEncodings.map List.reverse) left.length left.reverse).reverse

example : trimSpace [0x20, 0xE2, 0x80, 0x85, 0x61, 0xE3, 0x80, 0x80, 0x09] = [0x61] := by
  decide

/-- `unicode.IsSpace` of a rune. -/
def isSpace (c : Char) : Bool :=
  whiteSpace.contains c.toNat

/-- `strings.TrimSpace` of a string read as its runes, for text that is
valid UTF-8: the white-space runes are dropped from both ends. -/
def trimSpaceText (s : String) : String :=
  ⟨((s.data.dropWhile isSpace).reverse.dropWhile isSpace).reverse⟩

example : trimSpaceText "\t No such container: cfg-2\n" = "No such container: cfg-2" := by
  decide

@[simp]
theorem trimSpace_nil : trimSpace [] = [] :=
  rfl

theorem dropCodes_suffix (codes : List GoString) (fuel : Nat) (s : GoString) :
    dropCodes codes fuel s <:+ s := by
  induction fuel generalizing s with
  | zero =>
      exact List.suffix_refl s
  | succ fuel inductionHypothesis =>
      simp only [dropCodes]
      split
      · exact List.suffix_refl s
      · exact (inductionHypothesis _).trans (List.drop_suffix _ s)

theorem trimSpace_prefix_left (s : GoString) :
    trimSpace s <+: dropCodes spaceEncodings s.length s := by
  simpa using List.reverse_prefix.mpr
    (dropCodes_suffix (spaceEncodings.map List.reverse) _
      (dropCodes spaceEncodings s.length s).reverse)

theorem trimSpace_contiguous (s : GoString) : trimSpace s <:+: s :=
  (trimSpace_prefix_left s).isInfix.trans (dropCodes_suffix _ _ s).isInfix

section Codes

variable {codes : List GoString} {s : GoString}

theorem codeWidth_eq_zero (nonEmpty : ∀ code ∈ codes, code ≠ []) :
    codeWidth codes s = 0 ↔ ∀ code ∈ codes, ¬ code <+: s := by
  unfold codeWidth
  split
  · rename_i code found
    have member := List.mem_of_find?_eq_some found
    simp only [List.length_eq_zero, nonEmpty code member, false_iff, not_forall, not_not]
    exact ⟨code, member, by simpa using List.find?_some found⟩
  · rename_i notFound
    simpa using notFound

theorem codeWidth_ne_zero (positive : codeWidth codes s ≠ 0) :
    ∃ code ∈ codes, code <+: s ∧ code.length = codeWidth codes s := by
  unfold codeWidth at positive ⊢
  split at positive
  · rename_i code found
    exact ⟨code, List.mem_of_find?_eq_some found, by simpa using List.find?_some found, by
      simp [found]⟩
  · exact absurd rfl positive

theorem codeWidth_le_length : codeWidth codes s ≤ s.length := by
  unfold codeWidth
  split
  · rename_i code found
    exact (by simpa using List.find?_some found : code <+: s).length_le
  · exact Nat.zero_le _

theorem dropCodes_no_code (nonEmpty : ∀ code ∈ codes, code ≠ []) (fuel : Nat)
    (enough : s.length ≤ fuel) : ∀ code ∈ codes, ¬ code <+: dropCodes codes fuel s := by
  induction fuel generalizing s with
  | zero =>
      intro code member start
      have : s = [] := List.eq_nil_of_length_eq_zero (by omega)
      subst this
      exact nonEmpty code member (List.prefix_nil.mp start)
  | succ fuel inductionHypothesis =>
      simp only [dropCodes]
      split
      · rename_i noCode
        exact (codeWidth_eq_zero nonEmpty).mp noCode
      · rename_i _ someCode
        have positive : codeWidth codes s ≠ 0 := someCode
        have : codeWidth codes s ≤ s.length := codeWidth_le_length
        exact inductionHypothesis (by simp only [List.length_drop]; omega)

theorem dropCodes_drops_codes (fuel : Nat) (s : GoString) :
    ∃ dropped : List GoString, (∀ code ∈ dropped, code ∈ codes) ∧
      dropped.flatten ++ dropCodes codes fuel s = s := by
  induction fuel generalizing s with
  | zero =>
      exact ⟨[], by simp, rfl⟩
  | succ fuel inductionHypothesis =>
      simp only [dropCodes]
      split
      · exact ⟨[], by simp, rfl⟩
      · rename_i _ someCode
        obtain ⟨code, member, start, width⟩ := codeWidth_ne_zero someCode
        obtain ⟨dropped, codesOnly, rest⟩ := inductionHypothesis (s.drop (codeWidth codes s))
        refine ⟨code :: dropped, by simpa [member] using codesOnly, ?_⟩
        rw [List.flatten_cons, List.append_assoc, rest, ← width]
        exact List.prefix_iff_eq_append.mp start

end Codes

theorem encodeRune_ne_nil (r : Nat) : encodeRune r ≠ [] := by
  unfold encodeRune
  split_ifs <;> simp

theorem spaceEncodings_ne_nil : ∀ code ∈ spaceEncodings, code ≠ [] := by
  simpa [spaceEncodings] using fun r _ => encodeRune_ne_nil r

theorem trimSpace_no_space (s : GoString) :
    ∀ code ∈ spaceEncodings, ¬ code <+: trimSpace s ∧ ¬ code <:+ trimSpace s := by
  intro code member
  constructor
  · exact fun start => dropCodes_no_code spaceEncodings_ne_nil s.length le_rfl code member
      (start.trans (trimSpace_prefix_left s))
  · intro finish
    have reversed : code.reverse ∈ spaceEncodings.map List.reverse := List.mem_map_of_mem _ member
    have nonEmpty : ∀ code ∈ spaceEncodings.map List.reverse, code ≠ [] := fun _ mapped => by
      obtain ⟨original, isCode, rfl⟩ := List.mem_map.mp mapped
      simpa using spaceEncodings_ne_nil original isCode
    have noCode := dropCodes_no_code nonEmpty (dropCodes spaceEncodings s.length s).length
      (List.length_reverse (dropCodes spaceEncodings s.length s)).le code.reverse reversed
    exact noCode (by simpa [trimSpace] using List.reverse_prefix.mpr finish)

/-- `strings.TrimSpace` removes white space only: what it drops at either end
is a sequence of encodings of white-space runes. -/
theorem trimSpace_drops_space (s : GoString) :
    ∃ before after : List GoString, (∀ code ∈ before ++ after, code ∈ spaceEncodings) ∧
      before.flatten ++ trimSpace s ++ after.flatten = s := by
  obtain ⟨before, leading, left⟩ := @dropCodes_drops_codes spaceEncodings s.length s
  obtain ⟨reversed, trailing, right⟩ := @dropCodes_drops_codes
    (spaceEncodings.map List.reverse) (dropCodes spaceEncodings s.length s).length
    (dropCodes spaceEncodings s.length s).reverse
  refine ⟨before, (reversed.map List.reverse).reverse, fun code member => ?_, ?_⟩
  · rcases List.mem_append.mp member with early | late
    · exact leading code early
    · obtain ⟨original, isReversed, rfl⟩ := List.mem_map.mp (List.mem_reverse.mp late)
      obtain ⟨code, isCode, rfl⟩ := List.mem_map.mp (trailing original isReversed)
      simpa using isCode
  · have := congrArg List.reverse right
    rw [List.reverse_append, List.reverse_flatten, List.reverse_reverse] at this
    rw [trimSpace, List.append_assoc, this, left]

/-- `t` is `s` with white space removed from both ends and none left there:
what `strings.TrimSpace` is for. -/
def IsTrimmed (s t : GoString) : Prop :=
  (∃ before after : List GoString, (∀ code ∈ before ++ after, code ∈ spaceEncodings) ∧
      before.flatten ++ t ++ after.flatten = s) ∧
    ∀ code ∈ spaceEncodings, ¬ code <+: t ∧ ¬ code <:+ t

theorem trimSpace_isTrimmed (s : GoString) : IsTrimmed s (trimSpace s) :=
  ⟨trimSpace_drops_space s, trimSpace_no_space s⟩

theorem not_mem_of_mem_split (s : GoString) (sep : UInt8) :
    ∀ piece ∈ split s sep, sep ∉ piece := by
  induction s with
  | nil =>
      simp [split]
  | cons head tail inductionHypothesis =>
      simp only [split, List.splitOn, List.splitOnP_cons] at inductionHypothesis ⊢
      split
      · simpa using inductionHypothesis
      · rename_i notSep
        cases pieces : tail.splitOnP (· == sep) with
        | nil =>
            exact absurd pieces (List.splitOnP_ne_nil _ _)
        | cons first rest =>
            rw [pieces] at inductionHypothesis
            simp only [List.modifyHead_cons, List.mem_cons, forall_eq_or_imp]
            refine ⟨?_, fun piece member => inductionHypothesis piece (by simp [member])⟩
            simp only [List.mem_cons, not_or]
            exact ⟨fun equal => notSep (by simp [equal]), inductionHypothesis first (by simp)⟩

/-- Every piece of `strings.Split(s, sep)` is a slice of `s`, the first one a
prefix. -/
theorem split_pieces_contiguous (s : GoString) (sep : UInt8) :
    (∀ piece ∈ split s sep, piece <:+: s) ∧ ∀ first ∈ (split s sep).head?, first <+: s := by
  induction s with
  | nil =>
      simp [split]
  | cons head tail inductionHypothesis =>
      simp only [split, List.splitOn, List.splitOnP_cons] at inductionHypothesis ⊢
      have later : ∀ piece, piece <:+: tail → piece <:+: head :: tail :=
        fun _ inner => inner.trans (List.suffix_cons head tail).isInfix
      split
      · simp only [List.mem_cons, forall_eq_or_imp, List.head?_cons, Option.mem_def,
          Option.some.injEq, forall_eq']
        exact ⟨⟨List.nil_infix, fun piece member => later piece (inductionHypothesis.1 piece member)⟩,
          List.nil_prefix⟩
      · cases pieces : tail.splitOnP (· == sep) with
        | nil =>
            exact absurd pieces (List.splitOnP_ne_nil _ _)
        | cons first rest =>
            rw [pieces] at inductionHypothesis
            have firstPrefix : first <+: tail := inductionHypothesis.2 first (by simp)
            simp only [List.modifyHead_cons, List.mem_cons, forall_eq_or_imp, List.head?_cons,
              Option.mem_def, Option.some.injEq, forall_eq']
            exact ⟨⟨(List.prefix_cons_inj head).mpr firstPrefix |>.isInfix,
              fun piece member => later piece (inductionHypothesis.1 piece (by simp [member]))⟩,
              (List.prefix_cons_inj head).mpr firstPrefix⟩

/-- `strings.Contains` on text.  On valid UTF-8, containment of bytes and of
characters agree. -/
def contains (s sub : String) : Bool :=
  decide (sub.data <:+: s.data)

/-! ## Errors -/

/-- An operand of `fmt.Errorf` other than an error: a `%s` string, a `%d`
integer, or a `%v` slice of strings. -/
inductive Operand where
  | text (s : String)
  | number (n : Int)
  | strings (items : List String)
  deriving DecidableEq, Repr

/-- A Go `error` as the modelled code builds it: `fmt.Errorf` with a constant
format is `plain`, with one `%q` string operand `quoted`, with one `%v` or
`%w` error operand `wrapped`, with a `%s` name and a `%w` error operand
`named`, with string and integer operands `formatted`, and with those and a
last `%w` error operand `formattedWrapped`.  An error from outside the
repository, such as the driver's, is `external`, by the text of its
`Error()`. -/
inductive GoError where
  | plain (text : String)
  | quoted (format : String) (operand : GoString)
  | wrapped (format : String) (cause : GoError)
  | named (format : String) (name : String) (cause : GoError)
  | formatted (format : String) (operands : List Operand)
  | formattedWrapped (format : String) (operands : List Operand) (cause : GoError)
  | external (text : String)
  deriving DecidableEq, Repr

/-! ## Deadline loops -/

/-- The loops that wait for something until a deadline, as `WaitForHost`,
`WaitForPrimary` and `WaitForNewPrimary` write them: a round checks, and
returns what it finds; otherwise its `select` receives `ctx.Err()` when the
context is done, or the two seconds pass.  The rounds are those that start
before the deadline, and after the last one the loop returns `timeout`. -/
def pollRounds {ρ β : Type} (check : ρ → Option β) (cancelled : ρ → Option GoError)
    (timeout : GoError) : List ρ → Except GoError β
  | [] => .error timeout
  | round :: rounds =>
    match check round with
    | some found => .ok found
    | none =>
      match cancelled round with
      | some err => .error err
      | none => pollRounds check cancelled timeout rounds

section Poll

variable {ρ β : Type} (check : ρ → Option β) (cancelled : ρ → Option GoError) (timeout : GoError)

theorem pollRounds_ok {rounds : List ρ} {found : β}
    (returned : pollRounds check cancelled timeout rounds = .ok found) :
    ∃ round ∈ rounds, check round = some found := by
  induction rounds with
  | nil => cases returned
  | cons round rounds inductionHypothesis =>
      simp only [pollRounds] at returned
      split at returned
      · rename_i found' checked
        exact ⟨round, .head _, Except.ok.inj returned ▸ checked⟩
      · split at returned
        · cases returned
        · obtain ⟨other, later, checked⟩ := inductionHypothesis returned
          exact ⟨other, .tail _ later, checked⟩

theorem pollRounds_error {rounds : List ρ} {err : GoError}
    (failed : pollRounds check cancelled timeout rounds = .error err) :
    err = timeout ∨ ∃ round ∈ rounds, cancelled round = some err := by
  induction rounds with
  | nil => exact .inl (Except.error.inj failed).symm
  | cons round rounds inductionHypothesis =>
      simp only [pollRounds] at failed
      split at failed
      · cases failed
      · split at failed
        · exact .inr ⟨round, .head _, (Except.error.inj failed) ▸ ‹_›⟩
        · rcases inductionHypothesis failed with timedOut | ⟨other, later, done⟩
          · exact .inl timedOut
          · exact .inr ⟨other, .tail _ later, done⟩

theorem pollRounds_of_quiet {rounds : List ρ}
    (quiet : ∀ round ∈ rounds, check round = none ∧ cancelled round = none) :
    pollRounds check cancelled timeout rounds = .error timeout := by
  induction rounds with
  | nil => rfl
  | cons round rounds inductionHypothesis =>
      obtain ⟨notFound, live⟩ := quiet round (.head _)
      simp only [pollRounds, notFound, live]
      exact inductionHypothesis fun other later => quiet other (.tail _ later)

theorem pollRounds_ok_of_found {rounds : List ρ} (live : ∀ round ∈ rounds, cancelled round = none)
    {round : ρ} (listed : round ∈ rounds) (found : check round ≠ none) :
    ∃ result, pollRounds check cancelled timeout rounds = .ok result := by
  induction rounds with
  | nil => cases listed
  | cons first rounds inductionHypothesis =>
      simp only [pollRounds]
      split
      · exact ⟨_, rfl⟩
      · rename_i notFound
        rw [live first (.head _)]
        rcases List.mem_cons.mp listed with rfl | later
        · exact absurd notFound found
        · exact inductionHypothesis (fun other member => live other (.tail _ member)) later

end Poll

end MongoShardingPoc.Go
