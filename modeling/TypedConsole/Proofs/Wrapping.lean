import TypedConsole.Help.Printer
import TypedConsole.Proofs.Spans

/-!
# TypedConsole.Proofs.Wrapping

What wrapping makes of a paragraph.

A wrapped paragraph is a list of lines, some of which end in a hyphen that was inserted
(`WrappedLine`).  `rejoin` puts them together again, and `Fits` says of one line, with those that
follow it, that it is well cut: it is no wider than allowed, it is filled by a piece of a word that
no line could hold, or it ends where the next word does not fit.  `Wraps` says both of a list of
lines; each step of wrapping keeps it (`Wraps.cons`, `wraps_hyphenate`, `wraps_wrapFrom`).

All of that holds of widths that leave room for a character and a hyphen, and help messages use no
others (`wrapping_loses_nothing`).
-/

namespace TypedConsole

/-! ## words -/

namespace Text

/-- A word has a character and no blank. -/
structure IsWord (w : List Char) : Prop where
  ne_nil : w ≠ []
  solid : ∀ c ∈ w, isBlank c = false

theorem isWord_of_mem_words {s w : List Char} (h : w ∈ words s) : IsWord w := by
  fun_induction words s with
  | case1 => contradiction
  | case2 s c r hs ih =>
      rcases List.mem_cons.1 h with rfl | h
      · have hc := isBlank_of_skipBlanks_eq_cons hs
        refine ⟨by simp [leadingWord, hc], fun d hd => ?_⟩
        simpa using List.mem_takeWhile_imp hd
      · exact ih h

/-- The rest of a word that is cut is a word. -/
theorem IsWord.drop {w : List Char} (h : IsWord w) {n : Nat} (hn : n < w.length) :
    IsWord (w.drop n) where
  ne_nil := by rwa [Ne, List.drop_eq_nil_iff, Nat.not_le]
  solid c hc := h.solid c (List.mem_of_mem_drop hc)

/-- Words, each one behind a space. -/
def spaced (ws : List (List Char)) : List Char := ws.flatMap (' ' :: ·)

/-- Behind a word stands a space or nothing. -/
theorem atBoundary_spaced (ws : List (List Char)) : atBoundary (spaced ws) = true := by
  cases ws with
  | nil => rfl
  | cons w ws =>
      have hspace : isBlank ' ' = true := by decide
      simpa [spaced] using hspace

/-- Words joined by single spaces. -/
theorem intercalate_cons (w : List Char) (ws : List (List Char)) :
    [' '].intercalate (w :: ws) = w ++ spaced ws := by
  induction ws generalizing w with
  | nil => simp [spaced, List.intercalate]
  | cons v ws ih =>
      rw [List.intercalate_cons_cons, ih]
      simp [spaced]

end Text

namespace Help

open Text (IsWord isBlank leadingWord spaced)

/-! ## wrapped lines -/

/-- A line of a wrapped paragraph. -/
structure WrappedLine where
  text : List Char
  /-- The line ends in a hyphen that was inserted. -/
  cut : Bool

namespace WrappedLine

/-- What of the paragraph stands on the line. -/
def content (l : WrappedLine) : List Char := if l.cut then l.text.dropLast else l.text

/-- The lines put together: a cut line goes on in the next one, and between others stands a
space. -/
def rejoin : List WrappedLine → List Char
  | [] => []
  | [l] => l.content
  | l :: rest => l.content ++ (if l.cut then [] else [' ']) ++ rejoin rest

/-- The line `l`, with `rest` behind it, is well cut at the width. -/
structure Fits (width : Nat) (l : WrappedLine) (rest : List WrappedLine) : Prop where
  ne_nil : l.text ≠ []
  length_le : l.text.length ≤ width
  starts : ∀ c ∈ l.text.head?, isBlank c = false
  ends : ∀ c ∈ l.text.getLast?, isBlank c = false
  /-- Only a word that is too wide for any line is cut, and its piece fills the line. -/
  full : l.cut = true → ∃ word, leadingWord (rejoin (l :: rest)) = word ∧ width < word.length ∧
    l.text = word.take (width - 1) ++ ['-'] ∧ l.text.length = width
  /-- Otherwise the line ends where the next word does not fit. -/
  broken : l.cut = false → rest ≠ [] →
    width < l.text.length + 1 + (leadingWord (rejoin rest)).length

end WrappedLine

open WrappedLine (rejoin Fits)

/-- The text wraps to the lines. -/
structure Wraps (width : Nat) (text : List Char) (ls : List WrappedLine) : Prop where
  ne_nil : ls ≠ []
  rejoins : rejoin ls = text
  fits : ∀ l rest, l :: rest <:+ ls → Fits width l rest

variable {width : Nat} {text word line : List Char} {l : WrappedLine} {ls : List WrappedLine}

theorem rejoin_cons (h : ls ≠ []) :
    rejoin (l :: ls) = l.content ++ (if l.cut then [] else [' ']) ++ rejoin ls := by
  cases ls with
  | nil => contradiction
  | cons => rfl

/-- One more line in front. -/
theorem Wraps.cons (hl : Fits width l ls) (h : Wraps width text ls) :
    Wraps width (l.content ++ (if l.cut then [] else [' ']) ++ text) (l :: ls) where
  ne_nil := List.cons_ne_nil l ls
  rejoins := by rw [rejoin_cons h.ne_nil, h.rejoins]
  fits k rest hsuffix := by
    rcases List.suffix_cons_iff.1 hsuffix with heq | hsuffix
    · obtain ⟨rfl, rfl⟩ := List.cons_eq_cons.1 heq
      exact hl
    · exact h.fits k rest hsuffix

/-- There are no more lines than characters. -/
theorem Wraps.length_le (hwidth : 2 ≤ width) (h : Wraps width text ls) :
    ls.length ≤ text.length := by
  induction ls generalizing text with
  | nil => exact Nat.zero_le _
  | cons l ls ih =>
      have hl := h.fits l ls (List.suffix_refl _)
      have hpos := List.length_pos_iff.2 hl.ne_nil
      have hcontent : 0 < l.content.length := by
        cases hcut : l.cut with
        | false => simpa [WrappedLine.content, hcut] using hpos
        | true =>
            obtain ⟨-, -, -, -, hlength⟩ := hl.full hcut
            simp only [WrappedLine.content, hcut, if_true, List.length_dropLast]
            omega
      rw [← h.rejoins]
      by_cases hnil : ls = []
      · subst hnil
        exact hcontent
      · have hrest := ih ⟨hnil, rfl, fun k rest hk =>
          h.fits k rest (hk.trans (List.suffix_cons l ls))⟩
        rw [rejoin_cons hnil, List.length_append, List.length_append, List.length_cons]
        omega

/-! ## cutting a word -/

theorem hyphenate_of_le (h : word.length ≤ width) : hyphenate width word = ([], word) := by
  rw [hyphenate, if_neg (by omega)]

/-- Of a word that is too wide all but one character of a line is cut off, as long as that leaves
something on it. -/
theorem hyphenate_of_lt (hwidth : 2 ≤ width) (h : width < word.length) :
    hyphenate width word =
      ((word.take (width - 1) ++ ['-']) :: (hyphenate width (word.drop (width - 1))).1,
        (hyphenate width (word.drop (width - 1))).2) := by
  rw [hyphenate, if_pos ⟨h, hwidth⟩]

/-- What remains of a word fits a line. -/
theorem hyphenate_snd (hwidth : 2 ≤ width) {word : List Char} (hword : IsWord word) :
    IsWord (hyphenate width word).2 ∧ (hyphenate width word).2.length ≤ width := by
  by_cases h : width < word.length
  · rw [hyphenate_of_lt hwidth h]
    exact hyphenate_snd hwidth (hword.drop (by omega))
  · rw [hyphenate_of_le (Nat.le_of_not_lt h)]
    exact ⟨hword, Nat.le_of_not_lt h⟩
termination_by word.length
decreasing_by rw [List.length_drop]; omega

/-- The line that a piece of a word fills. -/
theorem fits_cut (hwidth : 2 ≤ width) (hword : IsWord word) (h : width < word.length)
    (hls : Wraps width (word.drop (width - 1) ++ text) ls) (htext : Text.atBoundary text = true) :
    Fits width ⟨word.take (width - 1) ++ ['-'], true⟩ ls := by
  have hlength : (word.take (width - 1) ++ ['-']).length = width := by
    rw [List.length_append, List.length_take, List.length_singleton]
    omega
  have hrejoin : rejoin (⟨word.take (width - 1) ++ ['-'], true⟩ :: ls) = word ++ text := by
    rw [rejoin_cons hls.ne_nil, hls.rejoins]
    simp [WrappedLine.content, ← List.append_assoc]
  refine ⟨by simp, hlength.le, fun c hc => ?_, fun c hc => ?_, fun _ => ⟨word, ?_, h, rfl, hlength⟩,
    by simp⟩
  · obtain ⟨d, w, rfl⟩ := List.exists_cons_of_ne_nil hword.ne_nil
    obtain ⟨n, hn⟩ : ∃ n, width - 1 = n + 1 := ⟨width - 2, by omega⟩
    rw [hn] at hc
    obtain rfl : d = c := by simpa using hc
    exact hword.solid d List.mem_cons_self
  · obtain rfl : '-' = c := by simpa using hc
    decide
  · rw [hrejoin, (Text.leadingWord_append hword.solid htext).1]

/-- Cutting a word: the full lines come before those of what remains of it. -/
theorem wraps_hyphenate (hwidth : 2 ≤ width) {word : List Char} (hword : IsWord word)
    (htext : Text.atBoundary text = true)
    (hls : Wraps width ((hyphenate width word).2 ++ text) ls) :
    Wraps width (word ++ text) ((hyphenate width word).1.map (⟨·, true⟩) ++ ls) := by
  by_cases h : width < word.length
  · rw [hyphenate_of_lt hwidth h] at hls ⊢
    have hrest := wraps_hyphenate hwidth (hword.drop (by omega)) htext hls
    have hcons := hrest.cons (fits_cut hwidth hword h hrest htext)
    simpa [WrappedLine.content, ← List.append_assoc] using hcons
  · rw [hyphenate_of_le (Nat.le_of_not_lt h)] at hls ⊢
    exact hls
termination_by word.length
decreasing_by rw [List.length_drop]; omega

/-! ## filling lines -/

/-- A line that has been begun. -/
structure Begun (width : Nat) (line : List Char) : Prop where
  ne_nil : line ≠ []
  length_le : line.length ≤ width
  starts : ∀ c ∈ line.head?, isBlank c = false
  ends : ∀ c ∈ line.getLast?, isBlank c = false

/-- A word that fits begins a line. -/
theorem begun_of_isWord (hword : IsWord word) (h : word.length ≤ width) : Begun width word where
  ne_nil := hword.ne_nil
  length_le := h
  starts c hc := hword.solid c (List.mem_of_mem_head? hc)
  ends c hc := hword.solid c (List.mem_of_getLast? hc)

/-- One more word on the line. -/
theorem Begun.append (h : Begun width line) (hword : IsWord word)
    (hfits : line.length + word.length + 1 ≤ width) : Begun width (line ++ ' ' :: word) where
  ne_nil := by simp
  length_le := by simpa [Nat.add_assoc] using hfits
  starts c hc := by
    rw [List.head?_append_of_ne_nil _ h.ne_nil] at hc
    exact h.starts c hc
  ends c hc := by
    rw [List.getLast?_append_of_ne_nil _ (List.cons_ne_nil _ _),
      List.getLast?_cons_of_ne_nil hword.ne_nil] at hc
    exact hword.solid c (List.mem_of_getLast? hc)

/-- A begun line may end the paragraph, or stand before a word that it has no room for. -/
theorem Begun.fits (h : Begun width line)
    (hbroken : ls ≠ [] → width < line.length + 1 + (leadingWord (rejoin ls)).length) :
    Fits width ⟨line, false⟩ ls where
  ne_nil := h.ne_nil
  length_le := h.length_le
  starts := h.starts
  ends := h.ends
  full hcut := absurd hcut (by simp)
  broken _ := hbroken

/-- **The lines of some words**, behind a line that has been begun. -/
theorem wraps_wrapFrom (hwidth : 2 ≤ width) {ws : List (List Char)} (hws : ∀ w ∈ ws, IsWord w)
    (h : Begun width line) :
    ∃ ls, wrapFrom width line ws = ls.map (·.text) ∧ Wraps width (line ++ spaced ws) ls := by
  induction ws generalizing line with
  | nil =>
      have hline : Fits width ⟨line, false⟩ [] := h.fits fun hne => absurd rfl hne
      refine ⟨[⟨line, false⟩], by simp [wrapFrom, h.ne_nil], List.cons_ne_nil _ _, ?_,
        fun l rest hsuffix => ?_⟩
      · simp [rejoin, WrappedLine.content, spaced]
      · rcases List.suffix_cons_iff.1 hsuffix with heq | hnil
        · obtain ⟨rfl, rfl⟩ := List.cons_eq_cons.1 heq
          exact hline
        · simp at hnil
  | cons word ws ih =>
      have hword := hws word List.mem_cons_self
      have hrest : ∀ w ∈ ws, IsWord w := fun w hw => hws w (List.mem_cons_of_mem _ hw)
      rw [wrapFrom, if_neg (by simpa using h.ne_nil)]
      by_cases hfits : line.length + word.length + 1 ≤ width
      · obtain ⟨ls, hls, hwraps⟩ := ih hrest (h.append hword hfits)
        refine ⟨ls, by rw [if_pos hfits, hls], ?_⟩
        simpa [spaced, List.append_assoc] using hwraps
      · obtain ⟨hlast, hle⟩ := hyphenate_snd hwidth hword
        obtain ⟨ls, hls, hwraps⟩ := ih hrest (begun_of_isWord hlast hle)
        have hcut := wraps_hyphenate hwidth hword (Text.atBoundary_spaced ws) hwraps
        have hline := hcut.cons (h.fits fun _ => by
          rw [hcut.rejoins, (Text.leadingWord_append hword.solid (Text.atBoundary_spaced ws)).1]
          omega)
        refine ⟨_, ?_, by simpa [WrappedLine.content, spaced] using hline⟩
        simp [hfits, hls, Function.comp_def]

/-- **The lines of a paragraph** with a word. -/
theorem wraps_wrap (hwidth : 2 ≤ width) {paragraph : List Char}
    (h : Text.words paragraph ≠ []) :
    ∃ ls, wrap width paragraph = ls.map (·.text) ∧
      Wraps width ([' '].intercalate (Text.words paragraph)) ls := by
  have hws : ∀ w ∈ Text.words paragraph, IsWord w := fun _ => Text.isWord_of_mem_words
  rw [wrap]
  generalize Text.words paragraph = ws at h hws
  obtain ⟨word, ws, rfl⟩ := List.exists_cons_of_ne_nil h
  obtain ⟨hlast, hle⟩ := hyphenate_snd hwidth (hws word List.mem_cons_self)
  obtain ⟨ls, hls, hwraps⟩ := wraps_wrapFrom hwidth
    (fun w hw => hws w (List.mem_cons_of_mem _ hw)) (begun_of_isWord hlast hle)
  refine ⟨_, ?_,
    Text.intercalate_cons word ws ▸ wraps_hyphenate hwidth (hws word List.mem_cons_self)
      (Text.atBoundary_spaced ws) hwraps⟩
  simp [wrapFrom, hls, Function.comp_def]

/-! ## the widths of help messages -/

/-- Fitting a layout to a total width leaves room for a character and a hyphen. -/
theorem Layout.le_middle_fit {l : Layout} (h : 2 ≤ l.middle) (total : Nat) :
    2 ≤ (l.fit total).middle := by
  simp only [Layout.fit, leastMiddle]
  split
  · exact h
  · split
    · exact Nat.le_trans (by decide) (Nat.le_max_right _ _)
    · exact (by decide : 2 ≤ 17)

end Help

namespace Printer

/-- The layouts of a printer have room for a character and a hyphen, whatever its width. -/
theorem le_middle_layout (p : Printer) (left : Nat)
    (rows : List (List Char × Option (List Char))) : 2 ≤ (p.layout left rows).middle := by
  have hrows : 2 ≤ (Help.Layout.ofRows left rows).middle := Nat.le_max_right _ _
  rw [layout]
  cases p.width with
  | none => exact hrows
  | some total => exact Help.Layout.le_middle_fit hrows total

/-- The paragraphs of help messages are wrapped, if they are, at widths with room for a character
and a hyphen: that of the command at the width of the printer or the least width of a middle column,
and those in the rows of every section at the width of the middle column of its layout. -/
structure LeavesRoom (p : Printer) (g : Grammar) : Prop where
  description : ∀ text, p.descriptionLines text = [] ∨
    (p.width = none ∧ ∃ line, p.descriptionLines text = ["", line]) ∨
    ∃ total paragraph, p.width = some total ∧ text.map Text.trim = some paragraph ∧
      2 ≤ max total Help.leastMiddle ∧ p.descriptionLines text =
        "" :: (Help.wrap (max total Help.leastMiddle) paragraph.toList).map String.ofList
  formats : 2 ≤ (p.formatLayout g).middle ∧
    p.formatSection? g = ((formatRows g).mapM fun row =>
      (p.formatLayout g).render? row.label row.typeName.toList
        (row.template.map String.toList)).map (titled "Format:")
  parameters : 2 ≤ (p.parameterLayout g).middle ∧ ∀ title required,
    p.parameterSection g title required =
      titled title (((describedParameters g).filter (·.required = required)).map fun d =>
        (p.parameterLayout g).lines d.displayName.toList (parameterText d).toList [])

theorem leavesRoom (p : Printer) (g : Grammar) : p.LeavesRoom g where
  description text := by
    rw [descriptionLines]
    split
    · exact .inl rfl
    · exact .inl rfl
    · next paragraph _ hparagraph =>
        cases hwidth : p.width with
        | none => exact .inr (.inl ⟨rfl, paragraph, rfl⟩)
        | some total =>
            have hroom : 2 ≤ max total Help.leastMiddle :=
              Nat.le_trans (by decide) (Nat.le_max_right _ _)
            exact .inr (.inr ⟨total, paragraph, rfl, hparagraph, hroom, rfl⟩)
  formats := ⟨p.le_middle_layout _ _, by
    rw [formatSection?, Option.map_eq_bind]
    rfl⟩
  parameters := ⟨p.le_middle_layout _ _, fun _ _ => rfl⟩

end Printer

namespace Help

open WrappedLine (rejoin Fits)

/-- **Wrapping loses nothing, and every line fits.**  At a width with room for a character and a
hyphen the lines of a paragraph, put together again, are its words joined by single spaces.  Every
line has a character, fits the width, and has no blank at either end; it is filled by a piece of a
word that is too wide, or it ends where the next word does not fit, or it is the last.  There are
no more lines than characters.  Help messages are wrapped at such widths only, whatever the width
of the printer. -/
theorem wrapping_loses_nothing :
    (∀ width paragraph, 2 ≤ width → ∃ ls : List WrappedLine,
      wrap width paragraph = ls.map (·.text) ∧
      rejoin ls = [' '].intercalate (Text.words paragraph) ∧
      (∀ l rest, l :: rest <:+ ls → Fits width l rest) ∧ ls.length ≤ (rejoin ls).length) ∧
    (∀ p g, Printer.LeavesRoom p g) ∧
    ∀ (l : Layout) (total : Nat), 2 ≤ l.middle → 2 ≤ (l.fit total).middle := by
  refine ⟨fun width paragraph hwidth => ?_, Printer.leavesRoom,
    fun _ total h => Layout.le_middle_fit h total⟩
  by_cases hwords : Text.words paragraph = []
  · have hnone : ∀ l rest, l :: rest <:+ [] → Fits width l rest := fun l rest h => by simp at h
    exact ⟨[], by simp [wrap, wrapFrom, hwords], by simp [hwords, rejoin], hnone, Nat.le_refl 0⟩
  · obtain ⟨ls, hls, hwraps⟩ := wraps_wrap hwidth hwords
    exact ⟨ls, hls, hwraps.rejoins, hwraps.fits, hwraps.rejoins ▸ hwraps.length_le hwidth⟩

/-- A word of eight letters on lines of four. -/
theorem wrapping_loses_nothing_narrow :
    wrap 4 "ab  abcdefgh".toList =
        ["ab".toList, "abc-".toList, "def-".toList, "gh".toList] ∧
      ∃ ls : List WrappedLine, wrap 4 "ab  abcdefgh".toList = ls.map (·.text) ∧
        rejoin ls = "ab abcdefgh".toList ∧
        ∀ l rest, l :: rest <:+ ls → Fits 4 l rest := by
  obtain ⟨ls, hls, hrejoin, hfits, -⟩ :=
    wrapping_loses_nothing.1 4 "ab  abcdefgh".toList (by decide)
  have hwords : [' '].intercalate (Text.words "ab  abcdefgh".toList) = "ab abcdefgh".toList := by
    decide +kernel
  exact ⟨by decide +kernel, ls, hls, hrejoin.trans hwords, hfits⟩

end Help

end TypedConsole
