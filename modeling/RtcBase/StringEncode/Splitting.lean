import Mathlib.Data.List.TakeWhile
import RtcBase.StringEncode.Hex

/-! `split`, `tokenize` and `tokenize_first`. Each scans the text in a way of its own: the first two
push a field at every delimiter, the last one skips the delimiters behind the first token. A function
is `none` when it reads behind the terminating element of the string or `substr` throws.
-/

namespace RtcBase.StringEncode

open Library

/-- `std::string::substr`, which throws when it starts behind the end. -/
def substr (source : List Byte) (pos len : Nat) : Option (List Byte) :=
  if pos ≤ source.length then some (window source pos len) else none

-----------------------------------------------------------------------------------------
-- The scanners
-----------------------------------------------------------------------------------------

/-- Push the field between two places, unless empty fields are left out and it is one. -/
def pushField (keepsEmpty : Bool) (source : List Byte) (last i : Nat) (fields : List (List Byte))
    : Option (List (List Byte)) :=
  if keepsEmpty ∨ i ≠ last then do
    let field ← substr source last (i - last)
    return fields ++ [field]
  else some fields

/-- The loop of `split` and `tokenize` from index `i` on, where the text has yet the given characters,
and the last field behind it.
-/
def fieldsLoop (keepsEmpty : Bool) (source : List Byte) (delimiter : Byte)
    : List Byte → Nat → Nat → List (List Byte) → Option (List (List Byte))
  | [], i, last, fields => pushField keepsEmpty source last i fields
  | ch :: rest, i, last, fields =>
      if ch = delimiter then do
        let fields ← pushField keepsEmpty source last i fields
        fieldsLoop keepsEmpty source delimiter rest (i + 1) (i + 1) fields
      else fieldsLoop keepsEmpty source delimiter rest (i + 1) last fields

/-- `split` into a vector, `none` for a null pointer: the number of fields, and the vector. -/
def split (source : List Byte) (delimiter : Byte)
    : Option (List (List Byte)) → Option (Nat × Option (List (List Byte)))
  | none => some (0, none)
  | some _ => do
      let fields ← fieldsLoop true source delimiter source 0 0 []
      return (fields.length, some fields)

/-- `tokenize`: the number of fields, and the vector. -/
def tokenize (source : List Byte) (delimiter : Byte) : Option (Nat × List (List Byte)) := do
  let fields ← fieldsLoop false source delimiter source 0 0 []
  return (fields.length, fields)

/-- The loop of `tokenize_first` that looks for more delimiters, over the elements of the string from
`right_pos` on with the terminating one.
-/
def skipDelimiters (delimiter : Byte) : List Byte → Nat → Option Nat
  | [], _ => none
  | ch :: rest, rightPos =>
      if ch = delimiter then skipDelimiters delimiter rest (rightPos + 1) else some rightPos

/-- The place behind the delimiters that start at `left_pos`. -/
def rightPosition (source : List Byte) (delimiter : Byte) (leftPos : Nat) : Option Nat :=
  skipDelimiters delimiter ((source ++ [0]).drop (leftPos + 1)) (leftPos + 1)

/-- `tokenize_first`: the token and the rest, or `none` where the function returns `false`. -/
def tokenizeFirst (source : List Byte) (delimiter : Byte)
    : Option (Option (List Byte × List Byte)) :=
  match source.findIdx? (· == delimiter) with
  | none => some none
  | some leftPos => do
      let rightPos ← rightPosition source delimiter leftPos
      let token ← substr source 0 leftPos
      let rest ← substr source rightPos (source.length - rightPos)
      return some (token, rest)

/-- `tokenize_first` again and again on the rest, until it returns `false` and the rest is the last
token; `none` when the rounds do not suffice.
-/
def tokensByFirst (delimiter : Byte) : Nat → List Byte → Option (List (List Byte))
  | 0, _ => none
  | rounds + 1, text => do
      match ← tokenizeFirst text delimiter with
      | none => return [text]
      | some (token, rest) =>
          let tokens ← tokensByFirst delimiter rounds rest
          return token :: tokens

-----------------------------------------------------------------------------------------
-- Fields
-----------------------------------------------------------------------------------------

/-- No field of a text has the delimiter. -/
theorem notMem_of_mem_splitOn {delimiter : Byte} {text field : List Byte}
    (member : field ∈ text.splitOn delimiter)
    : delimiter ∉ field := by
  induction text generalizing field with
  | nil =>
      rw [List.splitOn_nil, List.mem_singleton] at member
      simp [member]
  | cons ch text ih =>
      rw [List.splitOn_cons_eq_if_modifyHead] at member
      split at member
      · rcases List.mem_cons.mp member with rfl | member
        · exact List.not_mem_nil
        · exact ih member
      · rename_i other
        obtain ⟨first, later, fields⟩ := List.exists_cons_of_ne_nil (List.splitOn_ne_nil delimiter text)
        rw [fields] at member ih
        rcases List.mem_cons.mp member with rfl | member
        · rw [List.mem_cons, not_or]
          exact ⟨fun same => other (by simp [same]), ih List.mem_cons_self⟩
        · exact ih (List.mem_cons_of_mem _ member)

/-- The field between two places is pushed, or left out. -/
theorem pushField_eq (keepsEmpty : Bool) {source before field after : List Byte}
    (whole : source = before ++ field ++ after) (fields : List (List Byte))
    : pushField keepsEmpty source before.length (before.length + field.length) fields
      = some (fields ++ [field].filter fun field => keepsEmpty ∨ field ≠ []) := by
  have inside : before.length ≤ source.length := by
    rw [whole, List.length_append, List.length_append]
    omega
  have cut : window source before.length field.length = field := by
    rw [window, whole, List.append_assoc, List.drop_left, List.take_left]
  have empty : before.length + field.length ≠ before.length ↔ field ≠ [] := by
    rw [← List.length_pos_iff]
    omega
  unfold pushField
  by_cases kept : keepsEmpty ∨ field ≠ []
  · rw [if_pos (by rwa [empty]), Nat.add_sub_cancel_left, substr, if_pos inside, cut]
    simp [kept]
  · rw [if_neg (by rwa [empty])]
    simp [kept]

/-- The loop pushes the fields of what is left behind those that it has, by induction on what is
left. The field at hand has no delimiter so far.
-/
theorem fieldsLoop_eq (keepsEmpty : Bool) {source before field rest : List Byte} {delimiter : Byte}
    (whole : source = before ++ field ++ rest) (clean : delimiter ∉ field)
    (fields : List (List Byte))
    : fieldsLoop keepsEmpty source delimiter rest (before.length + field.length) before.length fields
      = some (fields
          ++ ((field ++ rest).splitOn delimiter).filter fun field => keepsEmpty ∨ field ≠ []) := by
  induction rest generalizing before field fields with
  | nil =>
      rw [fieldsLoop, pushField_eq keepsEmpty whole, List.append_nil, List.splitOn_eq_singleton clean]
  | cons ch rest ih =>
      rw [fieldsLoop]
      split
      · rename_i isDelimiter
        subst isDelimiter
        have next := @ih (before ++ field ++ [ch]) [] (by simp [whole]) List.not_mem_nil
        rw [pushField_eq keepsEmpty whole, List.splitOn_append_cons_self_of_not_mem clean]
        simp only [List.length_append, List.length_singleton, List.length_nil, Nat.add_zero] at next
        simp only [Option.bind_eq_bind, Option.bind_some, next, List.nil_append, List.append_assoc,
          ← List.filter_append, List.singleton_append]
      · rename_i other
        have next := @ih before (field ++ [ch]) (by simp [whole])
          (by simp [clean, Ne.symm other]) fields
        simp only [List.length_append, List.length_singleton, List.append_assoc,
          List.singleton_append] at next
        exact next

/-- All fields, from the start of the text. -/
theorem fieldsLoop_whole (keepsEmpty : Bool) (source : List Byte) (delimiter : Byte)
    : fieldsLoop keepsEmpty source delimiter source 0 0 []
      = some ((source.splitOn delimiter).filter fun field => keepsEmpty ∨ field ≠ []) :=
  @fieldsLoop_eq keepsEmpty source [] [] source delimiter rfl List.not_mem_nil []

theorem split_eq (source : List Byte) (delimiter : Byte) (before : List (List Byte))
    : split source delimiter (some before)
      = some ((source.splitOn delimiter).length, some (source.splitOn delimiter)) := by
  rw [split, fieldsLoop_whole true]
  simp

/-- The fields of a text that are not empty. -/
def tokens (source : List Byte) (delimiter : Byte) : List (List Byte) :=
  (source.splitOn delimiter).filter fun field => field ≠ []

theorem tokenize_eq (source : List Byte) (delimiter : Byte)
    : tokenize source delimiter
      = some ((tokens source delimiter).length, tokens source delimiter) := by
  rw [tokenize, fieldsLoop_whole false]
  simp [tokens]

-----------------------------------------------------------------------------------------
-- The first token
-----------------------------------------------------------------------------------------

/-- A text with a delimiter is a token, the delimiters behind it, and the rest. -/
structure FirstRun (source : List Byte) (delimiter : Byte) (token : List Byte) (more : Nat)
    (rest : List Byte)
    : Prop where
  whole : source = token ++ List.replicate (more + 1) delimiter ++ rest
  token : delimiter ∉ token
  rest : rest.head? ≠ some delimiter

theorem exists_firstRun {source : List Byte} {delimiter : Byte} (member : delimiter ∈ source)
    : ∃ token more rest, FirstRun source delimiter token more rest := by
  obtain ⟨token, later, whole, first⟩ := List.eq_append_cons_of_mem member
  have run : later.takeWhile (· == delimiter)
      = List.replicate (later.takeWhile (· == delimiter)).length delimiter := by
    apply List.eq_replicate_of_mem
    intro ch inRun
    simpa using List.mem_takeWhile_imp inRun
  refine ⟨token, (later.takeWhile (· == delimiter)).length, later.dropWhile (· == delimiter), ?_,
    first, ?_⟩
  · rw [List.replicate_succ, ← run, List.append_assoc, List.cons_append,
      List.takeWhile_append_dropWhile, whole]
  · intro starts
    have notDelimiter := List.head?_dropWhile_not (· == delimiter) later
    rw [starts] at notDelimiter
    simp at notDelimiter

/-- The scan ends behind the delimiters, unless the terminating element is one. -/
theorem skipDelimiters_run {delimiter : Byte} {rest : List Byte} (more rightPos : Nat)
    (other : rest.head? ≠ some delimiter)
    : skipDelimiters delimiter (List.replicate more delimiter ++ rest ++ [0]) rightPos
      = if rest = [] ∧ delimiter = 0 then none else some (rightPos + more) := by
  induction more generalizing rightPos with
  | zero =>
      cases rest with
      | nil =>
          by_cases isNul : delimiter = 0
          · simp [skipDelimiters, isNul]
          · rw [if_neg (fun both => isNul both.2)]
            exact if_neg (Ne.symm isNul)
      | cons ch rest =>
          have differs : ch ≠ delimiter := by simpa using other
          simp [skipDelimiters, differs]
  | succ more ih =>
      rw [List.replicate_succ, List.cons_append, List.cons_append, skipDelimiters, if_pos rfl, ih]
      congr 2
      omega

theorem findIdx?_of_not_mem {text : List Byte} {delimiter : Byte} (absent : delimiter ∉ text)
    : text.findIdx? (· == delimiter) = none := by
  rw [List.findIdx?_eq_none_iff]
  intro ch member
  simp only [beq_eq_false_iff_ne]
  rintro rfl
  exact absent member

namespace FirstRun

variable {source token rest : List Byte} {delimiter : Byte} {more : Nat}

theorem find (h : FirstRun source delimiter token more rest)
    : source.findIdx? (· == delimiter) = some token.length := by
  rw [h.whole, List.append_assoc, List.findIdx?_append, findIdx?_of_not_mem h.token,
    List.replicate_succ]
  simp [List.findIdx?_cons]

/-- The scan behind the token runs out of the string exactly when it comes to a terminating element
that is a delimiter.
-/
theorem rightPosition_eq (h : FirstRun source delimiter token more rest)
    : rightPosition source delimiter token.length
      = if rest = [] ∧ delimiter = 0 then none else some (token.length + (more + 1)) := by
  have behind
      : (source ++ [0]).drop (token.length + 1)
        = List.replicate more delimiter ++ rest ++ [0] := by
    rw [h.whole, List.replicate_succ, ← List.drop_drop, List.append_assoc, List.append_assoc,
      List.drop_left]
    simp
  rw [rightPosition, behind, skipDelimiters_run more _ h.rest]
  congr 2
  omega

theorem length (h : FirstRun source delimiter token more rest)
    : source.length = token.length + (more + 1) + rest.length := by
  rw [h.whole, List.length_append, List.length_append, List.length_replicate]

/-- The first token and the rest, where the scan stays inside the string. -/
theorem tokenizeFirst_eq (h : FirstRun source delimiter token more rest)
    : tokenizeFirst source delimiter
      = if rest = [] ∧ delimiter = 0 then none else some (some (token, rest)) := by
  have length := h.length
  have front : substr source 0 token.length = some token := by
    rw [substr, if_pos (Nat.zero_le _), window, List.drop_zero, h.whole, List.append_assoc,
      List.take_left]
  have back
      : substr source (token.length + (more + 1)) (source.length - (token.length + (more + 1)))
        = some rest := by
    rw [substr, if_pos (by omega), window, List.take_of_length_le (by rw [List.length_drop]), h.whole,
      List.drop_left' (by rw [List.length_append, List.length_replicate])]
  rw [tokenizeFirst, h.find]
  dsimp only
  rw [h.rightPosition_eq]
  split
  · rfl
  · simp only [Option.bind_eq_bind, Option.bind_some, front, back, Option.pure_def]

end FirstRun

theorem tokenizeFirst_absent {source : List Byte} {delimiter : Byte} (absent : delimiter ∉ source)
    : tokenizeFirst source delimiter = some none := by
  rw [tokenizeFirst, findIdx?_of_not_mem absent]

-----------------------------------------------------------------------------------------
-- Agreement
-----------------------------------------------------------------------------------------

/-- Delimiters in front of a text add no token. -/
theorem tokens_replicate (more : Nat) (delimiter : Byte) (rest : List Byte)
    : tokens (List.replicate more delimiter ++ rest) delimiter = tokens rest delimiter := by
  induction more with
  | zero => simp
  | succ more ih =>
      rw [List.replicate_succ, List.cons_append, tokens, List.splitOn_cons_eq_if_modifyHead, BEq.rfl,
        if_pos rfl, ← ih, List.filter_cons_of_neg (by simp)]
      rfl

theorem FirstRun.tokens_eq {source token rest : List Byte} {delimiter : Byte} {more : Nat}
    (h : FirstRun source delimiter token more rest)
    : tokens source delimiter = [token].filter (fun field => field ≠ []) ++ tokens rest delimiter := by
  have whole : source = token ++ delimiter :: (List.replicate more delimiter ++ rest) := by
    rw [h.whole, List.replicate_succ, List.append_assoc, List.cons_append]
  rw [tokens, whole, List.splitOn_append_cons_self_of_not_mem h.token, ← List.singleton_append,
    List.filter_append, ← tokens_replicate more delimiter rest]
  rfl

/-- Taking the first token until there is none comes to an end and leaves out no token, by induction
on the rounds: the rest is shorter than the text.
-/
theorem tokensByFirst_eq {delimiter : Byte} (notNul : delimiter ≠ 0) {rounds : Nat}
    {source : List Byte} (enough : source.length < rounds)
    : ∃ firsts,
        tokensByFirst delimiter rounds source = some firsts
        ∧ firsts.filter (fun field => field ≠ []) = tokens source delimiter := by
  induction rounds generalizing source with
  | zero => omega
  | succ rounds ih =>
      by_cases member : delimiter ∈ source
      · obtain ⟨token, more, rest, run⟩ := exists_firstRun member
        have length := run.length
        obtain ⟨later, takes, same⟩ := @ih rest (by omega)
        refine ⟨token :: later, ?_, ?_⟩
        · rw [tokensByFirst, run.tokenizeFirst_eq, if_neg (fun both => notNul both.2)]
          simp [takes]
        · rw [run.tokens_eq, ← same, ← List.filter_append, List.singleton_append]
      · refine ⟨[source], ?_, ?_⟩
        · rw [tokensByFirst, tokenizeFirst_absent member]
          rfl
        · rw [tokens, List.splitOn_eq_singleton member]

/-- The fields of `split` have no delimiter and are joined to the text again, `tokenize` returns those
that are not empty, and so does `tokenize_first` when it is applied until it returns `false`.
-/
theorem splitters_agree (source : List Byte) {delimiter : Byte} (notNul : delimiter ≠ 0)
    : ∃ fields : List (List Byte),
        (∀ before, split source delimiter (some before) = some (fields.length, some fields))
        ∧ (∀ field ∈ fields, delimiter ∉ field)
        ∧ List.intercalate [delimiter] fields = source
        ∧ ∃ nonempty : List (List Byte),
            nonempty = fields.filter (fun field => field ≠ [])
            ∧ tokenize source delimiter = some (nonempty.length, nonempty)
            ∧ ∀ rounds, source.length < rounds →
                ∃ firsts,
                  tokensByFirst delimiter rounds source = some firsts
                  ∧ firsts.filter (fun field => field ≠ []) = nonempty := by
  refine ⟨source.splitOn delimiter, split_eq source delimiter,
    fun field member => notMem_of_mem_splitOn member, List.intercalate_splitOn delimiter,
    tokens source delimiter, rfl, tokenize_eq source delimiter, ?_⟩
  intro rounds enough
  exact tokensByFirst_eq notNul enough

/-- Delimiters in front, behind and between two letters. -/
theorem splitters_agree_colons
    : ∃ fields, split (":a::b:".toList.map ascii) (ascii ':') (some []) = some (5, some fields)
        ∧ List.intercalate [ascii ':'] fields = ":a::b:".toList.map ascii
        ∧ tokenize (":a::b:".toList.map ascii) (ascii ':') = some (2, [[ascii 'a'], [ascii 'b']])
        ∧ tokensByFirst (ascii ':') 7 (":a::b:".toList.map ascii)
          = some [[], [ascii 'a'], [ascii 'b'], []] := by
  obtain ⟨fields, splits, -, joins, -⟩ :=
    splitters_agree (":a::b:".toList.map ascii) (show ascii ':' ≠ 0 by decide)
  have number : fields.length = 5 := by
    have five := splits []
    rw [show split (":a::b:".toList.map ascii) (ascii ':') (some [])
      = some (5, some [[], [ascii 'a'], [], [ascii 'b'], []]) by decide] at five
    exact (Prod.mk.inj (Option.some.inj five)).1.symm
  exact ⟨fields, number ▸ splits [], joins, by decide, by decide⟩

-----------------------------------------------------------------------------------------
-- Reads behind the string
-----------------------------------------------------------------------------------------

/-- The scan of `tokenize_first` ends inside the string, its terminating element included, `substr`
is called in range, and the text is taken apart at the first delimiters.
-/
structure StaysInRange (source : List Byte) (delimiter : Byte) : Prop where
  scan : ∀ leftPos, source.findIdx? (· == delimiter) = some leftPos →
    ∃ rightPos, rightPosition source delimiter leftPos = some rightPos ∧ rightPos ≤ source.length
  returns : ∃ result, tokenizeFirst source delimiter = some result
    ∧ ∀ token rest, result = some (token, rest) → ∃ more, FirstRun source delimiter token more rest

/-- The text has a NUL, and nothing else from the first one on. -/
def EndsInNuls (source : List Byte) : Prop :=
  ∃ token more, 0 ∉ token ∧ source = token ++ List.replicate (more + 1) 0

/-- `tokenize_first` leaves the string exactly when the delimiter is NUL and the text ends with its
first NULs: the terminating element is then taken for one more.
-/
theorem tokenizeFirst_staysInRange_iff (source : List Byte) (delimiter : Byte)
    : StaysInRange source delimiter ↔ ¬(delimiter = 0 ∧ EndsInNuls source) := by
  constructor
  · rintro inRange ⟨rfl, token, more, absent, whole⟩
    have run : FirstRun source 0 token more [] := ⟨by rw [whole, List.append_nil], absent, by simp⟩
    obtain ⟨result, returns, -⟩ := inRange.returns
    rw [run.tokenizeFirst_eq, if_pos ⟨rfl, rfl⟩] at returns
    cases returns
  · intro harmless
    by_cases member : delimiter ∈ source
    · obtain ⟨token, more, rest, run⟩ := exists_firstRun member
      have inside : ¬(rest = [] ∧ delimiter = 0) := by
        rintro ⟨rfl, rfl⟩
        exact harmless ⟨rfl, token, more, run.token, by rw [run.whole, List.append_nil]⟩
      have length := run.length
      refine ⟨?_, some (token, rest), ?_, ?_⟩
      · intro leftPos found
        cases run.find.symm.trans found
        exact ⟨_, by rw [run.rightPosition_eq, if_neg inside], by omega⟩
      · rw [run.tokenizeFirst_eq, if_neg inside]
      · rintro _ _ ⟨⟩
        exact ⟨more, run⟩
    · refine ⟨?_, none, tokenizeFirst_absent member, by simp⟩
      intro leftPos found
      obtain ⟨inside, isDelimiter, -⟩ := List.findIdx?_eq_some_iff_getElem.mp found
      rw [beq_iff_eq] at isDelimiter
      exact absurd (isDelimiter ▸ List.getElem_mem inside) member

/-- In a text of one NUL, the scan for more of them reads the terminating element and then the one
behind it.
-/
theorem nul_run_leaves_string : ¬∀ source delimiter, StaysInRange source delimiter := by
  intro always
  obtain ⟨result, returns, -⟩ := (always [0] 0).returns
  have leaves : tokenizeFirst [0] 0 = none := by decide
  cases leaves.symm.trans returns

end RtcBase.StringEncode
