/-
# Floats as text (`float_arr_to_string` of both programs)

`float_arr_to_string` formats every float into a buffer of its own, adds up their lengths,
and then copies the texts one behind the other into a block of that length, a space behind
each; the last space becomes the NUL.  How a float is formatted is a parameter.

The block holds nothing before it is written, and a write that does not fall inside it has
no result.  For texts that the buffer of `snprintf` can hold, every write falls inside, the
whole block is written, and the string in it is the texts in their order with single spaces
in between (`floatArrToString_eq`), where they are found again (`floatArrToString_splits`).

The index of the loops is an `int` in the source, and the pointers to the buffers stand in an
array on the stack, `float_strings`, of as many entries as there are floats.  Neither is modelled:
the loops go over the list of the floats, and the list of the texts stands for the array, however
long it is.
-/
import Mathlib.Tactic.SplitIfs
import Quadrocopt.ByteWords

namespace FloatStrings

/-- The char that ends a string. -/
def NUL : Char := Char.ofNat 0

/-! ## The source -/

/-- A block, with nothing in the places that nobody has written. -/
abbrev CharBlock := List (Option Char)

/-- What `malloc` returns. -/
def malloc (size : ℕ) : CharBlock := List.replicate size none

/-- A write to a block at an offset; there is no result where it does not fall inside. -/
def write (block : CharBlock) (offset : ℕ) (src : List Char) : Option CharBlock :=
  if offset + src.length ≤ block.length then
    some (block.take offset ++ src.map some ++ block.drop (offset + src.length))
  else none

/-- `snprintf (buf, size, "%f", f)`, for the text that `%f` stands for. -/
def snprintf (size : ℕ) (text : List Char) : List Char := text.take (size - 1)

/-- The first loop of `float_arr_to_string`: the texts, and `total_len`. -/
def formatLoop (fmt : CFloat → List Char) : List CFloat → List (List Char) × ℕ
  | [] => ([], 0)
  | f :: fs =>
      let buf := snprintf 100 (fmt f)
      let rest := formatLoop fmt fs
      (buf :: rest.1, (buf.length + 1) + rest.2)

/-- The second loop, from `curr_offset` on. -/
def joinLoop (result : CharBlock) (currOffset : ℕ) : List (List Char) → Option (CharBlock × ℕ)
  | [] => some (result, currOffset)
  | flRepr :: floatStrings => do
      let result ← write result currOffset flRepr
      let result ← write result (currOffset + flRepr.length) [' ']
      joinLoop result (currOffset + flRepr.length + 1) floatStrings

/-- `float_arr_to_string`: the block that it returns. -/
def floatArrToString (fmt : CFloat → List Char) (fs : List CFloat) : Option CharBlock :=
  if fs = [] then some [some NUL]
  else do
    let (floatStrings, totalLen) := formatLoop fmt fs
    let (result, currOffset) ← joinLoop (malloc totalLen) 0 floatStrings
    write result (currOffset - 1) [NUL]

/-- The string in a block: what is before the NUL. -/
def cString : CharBlock → Option (List Char)
  | [] => none
  | none :: _ => none
  | some c :: rest => if c = NUL then some [] else (cString rest).map (c :: ·)

/-! ## The texts -/

/-- What is asked of the text of a float: it is not empty, has neither a space nor a NUL in
it, and the buffer of `snprintf` holds it. -/
structure Printable (text : List Char) : Prop where
  ne_nil : text ≠ []
  no_space : ' ' ∉ text
  no_NUL : NUL ∉ text
  short : text.length < 100

/-- The texts in their order, with single spaces in between. -/
def joined (fmt : CFloat → List Char) (fs : List CFloat) : List Char :=
  [' '].intercalate (fs.map fmt)

/-- Texts with a space behind each. -/
def spaced (texts : List (List Char)) : List Char := texts.flatMap (· ++ [' '])

/-- The last space is the one too many. -/
theorem spaced_eq {texts : List (List Char)} (h : texts ≠ []) :
    spaced texts = [' '].intercalate texts ++ [' '] := by
  induction texts with
  | nil => exact absurd rfl h
  | cons text texts ih =>
    cases texts with
    | nil => simp [spaced]
    | cons text' texts =>
      have hrest := ih (List.cons_ne_nil _ _)
      rw [spaced, List.flatMap_cons, ← spaced, hrest]
      simp [List.intercalate]

/-! ## The loops -/

/-- A write behind what is written. -/
theorem write_append (written : List Char) (free : CharBlock) (src : List Char)
    (h : src.length ≤ free.length) :
    write (written.map some ++ free) written.length src
      = some ((written ++ src).map some ++ free.drop src.length) := by
  have hlength : (written.map some).length = written.length := List.length_map _
  rw [write, if_pos (by rw [List.length_append, hlength]; omega)]
  rw [List.take_left' hlength, List.drop_append, hlength, List.drop_of_length_le (by omega),
    List.nil_append, Nat.add_sub_cancel_left, List.map_append]

theorem length_spaced_cons (text : List Char) (texts : List (List Char)) :
    (spaced (text :: texts)).length = (text.length + 1) + (spaced texts).length := by
  rw [spaced, List.flatMap_cons, List.length_append, List.length_append]
  rfl

/-- The first loop: no text is cut off, and the length is that of the texts with a space
behind each. -/
theorem formatLoop_eq {fmt : CFloat → List Char} {fs : List CFloat}
    (h : ∀ f ∈ fs, Printable (fmt f)) :
    formatLoop fmt fs = (fs.map fmt, (spaced (fs.map fmt)).length) := by
  induction fs with
  | nil => rfl
  | cons f fs ih =>
    rw [List.forall_mem_cons] at h
    have hbuf : snprintf 100 (fmt f) = fmt f :=
      List.take_of_length_le (Nat.le_pred_of_lt h.1.short)
    rw [formatLoop, ih h.2, hbuf, List.map_cons, length_spaced_cons]

/-- The second loop fills the block. -/
theorem joinLoop_eq (written : List Char) (texts : List (List Char)) :
    joinLoop (written.map some ++ malloc (spaced texts).length) written.length texts
      = some ((written ++ spaced texts).map some, (written ++ spaced texts).length) := by
  induction texts generalizing written with
  | nil => simp [joinLoop, malloc, spaced]
  | cons text texts ih =>
    have hfree : (malloc (spaced (text :: texts)).length).drop text.length
        = malloc (1 + (spaced texts).length) := by
      rw [malloc, List.drop_replicate, length_spaced_cons]
      congr 1
      omega
    have hfree' : (malloc (1 + (spaced texts).length)).drop [' '].length
        = malloc (spaced texts).length := by
      rw [malloc, List.drop_replicate]
      congr 1
      simp
    have htext : text.length ≤ (malloc (spaced (text :: texts)).length).length := by
      rw [malloc, List.length_replicate, length_spaced_cons]
      omega
    have hspace : [' '].length ≤ (malloc (1 + (spaced texts).length)).length := by
      rw [malloc, List.length_replicate]
      exact Nat.le_add_right _ _
    have hlength : written.length + text.length = (written ++ text).length :=
      List.length_append.symm
    have hlength' : (written ++ text).length + 1 = (written ++ text ++ [' ']).length := by
      rw [@List.length_append _ _ [' ']]
      rfl
    rw [joinLoop, write_append written _ text htext, hfree, Option.bind_eq_bind, Option.bind_some,
      hlength, write_append (written ++ text) _ [' '] hspace, hfree', Option.bind_some, hlength',
      ih]
    simp [spaced]

/-! ## The result -/

/-- Reading a string that is in a block. -/
theorem cString_eq {text : List Char} (h : NUL ∉ text) (rest : CharBlock) :
    cString (text.map some ++ some NUL :: rest) = some text := by
  induction text with
  | nil => exact if_pos rfl
  | cons c text ih =>
    rw [List.mem_cons, not_or] at h
    rw [List.map_cons, List.cons_append, cString, if_neg (Ne.symm h.1), ih h.2]
    rfl

theorem joined_append (fmt : CFloat → List Char) {fs : List CFloat} (hne : fs ≠ []) :
    joined fmt fs ++ [' '] = spaced (fs.map fmt) :=
  (spaced_eq (List.map_eq_nil_iff.not.mpr hne)).symm

theorem NUL_notMem_joined {fmt : CFloat → List Char} {fs : List CFloat} (hne : fs ≠ [])
    (h : ∀ f ∈ fs, Printable (fmt f)) : NUL ∉ joined fmt fs := by
  intro hmem
  have hspaced : NUL ∈ spaced (fs.map fmt) := by
    rw [← joined_append fmt hne]
    exact List.mem_append_left _ hmem
  obtain ⟨text, htext, hNUL⟩ := List.mem_flatMap.mp hspaced
  obtain ⟨f, hf, rfl⟩ := List.mem_map.mp htext
  rcases List.mem_append.mp hNUL with hNUL | hNUL
  · exact (h f hf).no_NUL hNUL
  · exact absurd (List.mem_singleton.mp hNUL) (by decide)

/-- **The text of an array.**  For floats whose texts the buffer holds, every write falls
inside the block, the whole block is written, and what is in it is the joined texts. -/
theorem floatArrToString_eq {fmt : CFloat → List Char} {fs : List CFloat} (hne : fs ≠ [])
    (h : ∀ f ∈ fs, Printable (fmt f)) :
    floatArrToString fmt fs = some ((joined fmt fs ++ [NUL]).map some)
      ∧ (formatLoop fmt fs).2 = (joined fmt fs ++ [NUL]).length
      ∧ cString ((joined fmt fs ++ [NUL]).map some) = some (joined fmt fs) := by
  have hspaced := joined_append fmt hne
  have hloop := joinLoop_eq [] (fs.map fmt)
  rw [List.map_nil, List.nil_append, List.nil_append, List.length_nil, ← hspaced] at hloop
  have hlast := write_append (joined fmt fs) [some ' '] [NUL] (Nat.le_refl _)
  refine ⟨?_, ?_, ?_⟩
  · rw [floatArrToString, if_neg hne, formatLoop_eq h, ← hspaced]
    show ((joinLoop _ 0 (fs.map fmt)).bind fun p => write p.1 (p.2 - 1) [NUL]) = _
    rw [hloop, Option.bind_some, List.map_append]
    rw [List.length_append]
    exact hlast.trans (congrArg some (List.append_nil _))
  · rw [formatLoop_eq h, ← hspaced, List.length_append, List.length_append]
    rfl
  · rw [List.map_append]
    exact cString_eq (NUL_notMem_joined hne h) []

/-- The texts are found again between the spaces. -/
theorem splitOn_joined {fmt : CFloat → List Char} {fs : List CFloat} (hne : fs ≠ [])
    (h : ∀ f ∈ fs, Printable (fmt f)) : (joined fmt fs).splitOn ' ' = fs.map fmt := by
  apply List.splitOn_intercalate
  · intro text htext
    obtain ⟨f, hf, rfl⟩ := List.mem_map.mp htext
    exact (h f hf).no_space
  · exact List.map_eq_nil_iff.not.mpr hne

/-- An array with a float in it has a text. -/
theorem joined_ne_nil {fmt : CFloat → List Char} {fs : List CFloat} (hne : fs ≠ [])
    (h : ∀ f ∈ fs, Printable (fmt f)) : joined fmt fs ≠ [] := by
  intro hnil
  have hsplit := splitOn_joined hne h
  rw [hnil, List.splitOn_nil] at hsplit
  have hempty : [] ∈ fs.map fmt := by
    rw [← hsplit]
    exact List.mem_singleton_self []
  obtain ⟨f, hf, htext⟩ := List.mem_map.mp hempty
  exact (h f hf).ne_nil htext

/-- Fewer floats have another text. -/
theorem joined_take_ne {fmt : CFloat → List Char} {fs : List CFloat}
    (h : ∀ f ∈ fs, Printable (fmt f)) {k : ℕ} (hk : k < fs.length) :
    joined fmt (fs.take k) ≠ joined fmt fs := by
  intro heq
  have hne : fs ≠ [] := List.ne_nil_of_length_pos (Nat.zero_lt_of_lt hk)
  by_cases htake : fs.take k = []
  · rw [htake] at heq
    exact joined_ne_nil hne h heq.symm
  · -- as many texts as floats are found again in either
    have hsplit := splitOn_joined htake fun f hf => h f (List.mem_of_mem_take hf)
    rw [heq, splitOn_joined hne h] at hsplit
    have hlength := congrArg List.length hsplit
    rw [List.length_map, List.length_map, List.length_take] at hlength
    omega

/-- **No write outside, no text lost.**  For every array with a float in it and every way to
format its floats: the writes fall inside the block of `total_len` chars, all of it is
written, and the string in it is the texts in their order with single spaces in between, so
that the texts are what is between its spaces. -/
theorem floatArrToString_splits {fmt : CFloat → List Char} {fs : List CFloat} (hne : fs ≠ [])
    (h : ∀ f ∈ fs, Printable (fmt f)) :
    ∃ block text, floatArrToString fmt fs = some block
      ∧ block.length = (formatLoop fmt fs).2
      ∧ none ∉ block
      ∧ cString block = some text
      ∧ text = [' '].intercalate (fs.map fmt)
      ∧ text.splitOn ' ' = fs.map fmt := by
  obtain ⟨hblock, hlength, htext⟩ := floatArrToString_eq hne h
  refine ⟨_, joined fmt fs, hblock, ?_, ?_, htext, rfl, splitOn_joined hne h⟩
  · rw [List.length_map, hlength]
  · intro hnone
    obtain ⟨c, -, hc⟩ := List.mem_map.mp hnone
    cases hc

/-- What `%f` makes of 0, of -10.25 and of 1.5. -/
def someTexts (f : CFloat) : List Char :=
  if f = 0 then ['0', '.', '0', '0', '0', '0', '0', '0']
  else if f = 0xc1240000 then ['-', '1', '0', '.', '2', '5', '0', '0', '0', '0']
  else ['1', '.', '5', '0', '0', '0', '0', '0']

/-- Three floats with texts of two lengths. -/
theorem floatArrToString_splits_three :
    ∃ block text, floatArrToString someTexts [0, 0xc1240000, 0x3fc00000] = some block
      ∧ block.length = 29
      ∧ none ∉ block
      ∧ cString block = some text
      ∧ text = [' '].intercalate ([0, 0xc1240000, 0x3fc00000].map someTexts)
      ∧ text.splitOn ' ' = [0, 0xc1240000, 0x3fc00000].map someTexts := by
  have hprintable : ∀ f ∈ [0, 0xc1240000, 0x3fc00000], Printable (someTexts f) := by
    intro f _
    unfold someTexts
    split_ifs
    · exact ⟨by decide, by decide, by decide, by decide⟩
    · exact ⟨by decide, by decide, by decide, by decide⟩
    · exact ⟨by decide, by decide, by decide, by decide⟩
  exact floatArrToString_splits (by decide) hprintable

end FloatStrings
