/-
# Patterns over separated levels

A word is divided into levels by a separator.  A pattern is a word in which a level
may be a wildcard for one level, and the last may be a wildcard for all levels that
remain, none of them included.  Whether a word matches is a matter of the two lists of
levels.

A matcher that walks through the symbols of both words meets a level symbol by symbol
and cannot see a level without symbols; it computes the strict form of matching, where
every wildcard stands over a level that is not empty.
-/

import Mathlib.Data.List.Basic

namespace MqttClient.Semantics

variable {α : Type}

/-! ## Levels -/

/-- The levels of a word. -/
def levels [DecidableEq α] (sep : α) (word : List α) : List (List α) := word.splitOn sep

/-- The symbols of all levels, with a separator behind each. -/
def extent : List (List α) → Nat
  | [] => 0
  | level :: rest => level.length + 1 + extent rest

section Levels

variable [DecidableEq α] (sep : α)

@[simp]
theorem levels_nil : levels sep [] = [[]] := rfl

@[simp]
theorem levels_sep (word : List α) : levels sep (sep :: word) = [] :: levels sep word := by
  simp [levels, List.splitOn, List.splitOnP_cons_eq_if_modifyHead]

theorem levels_cons {a : α} (h : a ≠ sep) (word : List α) :
    levels sep (a :: word) = (levels sep word).modifyHead (a :: ·) := by
  simp [levels, List.splitOn, List.splitOnP_cons_eq_if_modifyHead, h]

/-- There is always a first level: what stands before the first separator. -/
theorem levels_eq_cons (word : List α) :
    ∃ rest, levels sep word = word.takeWhile (· ≠ sep) :: rest ∧
      levels sep (word.dropWhile (· ≠ sep)) = [] :: rest := by
  induction word with
  | nil => exact ⟨[], rfl, rfl⟩
  | cons a word ih =>
      by_cases h : a = sep
      · subst h
        exact ⟨levels a word, by simp, by simp⟩
      · obtain ⟨rest, hlevels, hrest⟩ := ih
        refine ⟨rest, ?_, ?_⟩
        · rw [levels_cons sep h, hlevels]
          simp [h]
        · simpa [h] using hrest

/-- A symbol that is no separator is the first of the first level. -/
theorem levels_cons_eq {a : α} (h : a ≠ sep) (word : List α) :
    ∃ level rest, levels sep (a :: word) = (a :: level) :: rest ∧
      levels sep word = level :: rest := by
  obtain ⟨rest, hlevels, _⟩ := levels_eq_cons sep word
  refine ⟨_, rest, ?_, hlevels⟩
  rw [levels_cons sep h, hlevels]
  rfl

/-- Separators and symbols make up the word. -/
theorem extent_levels (word : List α) : extent (levels sep word) = word.length + 1 := by
  induction word with
  | nil => rfl
  | cons a word ih =>
      by_cases h : a = sep
      · subst h
        rw [levels_sep, extent, ih, List.length_nil, List.length_cons]
        omega
      · obtain ⟨level, rest, hlevels, htail⟩ := levels_cons_eq sep h word
        rw [htail, extent] at ih
        rw [hlevels, extent, List.length_cons, List.length_cons]
        omega

/-- The symbols of a level are symbols of the word. -/
theorem mem_of_mem_levels {word level : List α} (h : level ∈ levels sep word) {a : α}
    (ha : a ∈ level) : a ∈ word := by
  induction word generalizing level with
  | nil =>
      obtain rfl : level = [] := List.mem_singleton.mp h
      exact ha
  | cons b word ih =>
      by_cases hb : b = sep
      · rw [hb, levels_sep] at h
        rcases List.mem_cons.mp h with rfl | h
        · cases ha
        · exact List.mem_cons_of_mem _ (ih h ha)
      · obtain ⟨first, rest, hlevels, htail⟩ := levels_cons_eq sep hb word
        rw [hlevels] at h
        rcases List.mem_cons.mp h with rfl | h
        · rcases List.mem_cons.mp ha with rfl | ha
          · exact List.mem_cons_self
          · exact List.mem_cons_of_mem _ (ih (htail ▸ List.mem_cons_self) ha)
        · exact List.mem_cons_of_mem _ (ih (htail ▸ List.mem_cons_of_mem _ h) ha)

theorem levels_eq_singleton_nil {word : List α} (h : levels sep word = [[]]) : word = [] := by
  cases word with
  | nil => rfl
  | cons a word =>
      by_cases ha : a = sep
      · subst ha
        obtain ⟨rest, hlevels, _⟩ := levels_eq_cons a word
        rw [levels_sep, hlevels] at h
        cases h
      · obtain ⟨level, rest, hlevels, _⟩ := levels_cons_eq sep ha word
        rw [hlevels] at h
        cases h

end Levels

/-! ## Patterns -/

section Patterns

variable (single multi : α)

/-- The level has no wildcard symbol. -/
def IsPlain (level : List α) : Prop := single ∉ level ∧ multi ∉ level

/-- A wildcard symbol is a whole level, and the one for all levels is the last. -/
inductive WellFormed : List (List α) → Prop
  | last {level : List α}
      (h : level = [multi] ∨ level = [single] ∨ IsPlain single multi level) : WellFormed [level]
  | cons {level : List α} {rest : List (List α)}
      (h : level = [single] ∨ IsPlain single multi level) (hrest : WellFormed rest) :
      WellFormed (level :: rest)

/-- The levels of a pattern match those of a word. -/
inductive LevelsMatch : List (List α) → List (List α) → Prop
  | nil : LevelsMatch [] []
  | multi (names : List (List α)) : LevelsMatch [[multi]] names
  | single (name : List α) {pattern names : List (List α)} (h : LevelsMatch pattern names) :
      LevelsMatch ([single] :: pattern) (name :: names)
  | equal (level : List α) {pattern names : List (List α)} (h : LevelsMatch pattern names) :
      LevelsMatch (level :: pattern) (level :: names)

/-- Every wildcard of the pattern stands over a level of the word, and not an empty one. -/
def WildcardsFilled : List (List α) → List (List α) → Prop
  | [], _ => True
  | level :: pattern, names =>
      (level = [single] ∨ level = [multi] → names.headD [] ≠ []) ∧
        WildcardsFilled pattern names.tail

variable {single multi} {level name : List α} {pattern names : List (List α)}

/-- A word matches itself, wildcard symbols included. -/
theorem LevelsMatch.refl : ∀ pattern : List (List α), LevelsMatch single multi pattern pattern
  | [] => .nil
  | level :: pattern => .equal level (LevelsMatch.refl pattern)

theorem LevelsMatch.extent_le (h : LevelsMatch single multi pattern names) :
    extent pattern ≤ 2 * extent names + 2 := by
  induction h with
  | nil => exact Nat.zero_le _
  | multi names => exact Nat.le_add_left 2 (2 * extent names)
  | single name _ ih =>
      simp only [extent, List.length_singleton]
      omega
  | equal level _ ih =>
      simp only [extent]
      omega

/-- Without wildcard symbols in the pattern there is nothing to fill. -/
theorem wildcardsFilled_of_isPlain (h : ∀ level ∈ pattern, IsPlain single multi level) :
    WildcardsFilled single multi pattern names := by
  induction pattern generalizing names with
  | nil => trivial
  | cons level pattern ih =>
      refine ⟨?_, ih fun level hlevel => h level (List.mem_cons_of_mem _ hlevel)⟩
      have hplain := h level List.mem_cons_self
      rintro (rfl | rfl)
      · exact absurd List.mem_cons_self hplain.1
      · exact absurd List.mem_cons_self hplain.2

/-- Plain levels are a pattern. -/
theorem WellFormed.of_isPlain : ∀ {pattern : List (List α)},
    (∀ level ∈ pattern, IsPlain single multi level) → pattern ≠ [] →
      WellFormed single multi pattern
  | [], _, h => absurd rfl h
  | [level], h, _ => .last (.inr (.inr (h level List.mem_cons_self)))
  | level :: _ :: _, h, _ =>
      .cons (.inr (h level List.mem_cons_self))
        (WellFormed.of_isPlain (fun level hlevel => h level (List.mem_cons_of_mem _ hlevel))
          (List.cons_ne_nil _ _))

/-- The first level of a pattern is plain unless it begins with a wildcard symbol. -/
theorem WellFormed.isPlain_head (h : WellFormed single multi (level :: pattern))
    (hsingle : level ≠ [single]) (hmulti : level ≠ [multi]) : IsPlain single multi level := by
  cases h with
  | last h => exact (h.resolve_left hmulti).resolve_left hsingle
  | cons h _ => exact h.resolve_left hsingle

/-- A first level may be replaced by a plain one. -/
theorem WellFormed.replace_head (h : WellFormed single multi (level :: pattern))
    (hname : IsPlain single multi name) : WellFormed single multi (name :: pattern) := by
  cases h with
  | last _ => exact .last (.inr (.inr hname))
  | cons _ hrest => exact .cons (.inr hname) hrest

/-- A first level that begins with the wildcard for one level is that wildcard. -/
theorem WellFormed.single_head (hne : single ≠ multi)
    (h : WellFormed single multi ((single :: level) :: pattern)) : level = [] := by
  by_contra hlevel
  have hplain : IsPlain single multi (single :: level) := by
    refine h.isPlain_head ?_ ?_
    · exact fun heq => hlevel (List.cons.inj heq).2
    · exact fun heq => hne (List.cons.inj heq).1
  exact hplain.1 List.mem_cons_self

/-- A first level that begins with the wildcard for all levels is the whole pattern. -/
theorem WellFormed.multi_head (hne : single ≠ multi)
    (h : WellFormed single multi ((multi :: level) :: pattern)) : level = [] ∧ pattern = [] := by
  have hnot : ¬ (multi :: level = [single] ∨ IsPlain single multi (multi :: level)) := by
    rintro (heq | hplain)
    · exact hne (List.cons.inj heq).1.symm
    · exact hplain.2 List.mem_cons_self
  cases h with
  | last h => exact ⟨(List.cons.inj (h.resolve_right hnot)).2, rfl⟩
  | cons h _ => exact absurd h hnot

/-- A level that is no wildcard matches itself only. -/
theorem levelsMatch_cons_iff (hsingle : level ≠ [single]) (hmulti : level ≠ [multi]) :
    LevelsMatch single multi (level :: pattern) (name :: names) ↔
      level = name ∧ LevelsMatch single multi pattern names := by
  constructor
  · intro h
    cases h with
    | multi _ => exact absurd rfl hmulti
    | single _ _ => exact absurd rfl hsingle
    | equal _ h => exact ⟨rfl, h⟩
  · rintro ⟨rfl, h⟩
    exact .equal level h

/-- The wildcard for one level matches any level. -/
theorem levelsMatch_single_iff (hne : single ≠ multi) :
    LevelsMatch single multi ([single] :: pattern) (name :: names) ↔
      LevelsMatch single multi pattern names := by
  constructor
  · intro h
    cases h with
    | multi _ => exact absurd rfl hne
    | single _ h => exact h
    | equal _ h => exact h
  · exact .single name

end Patterns

/-! ## Matching strictly -/

section Strict

variable (single multi : α)

/-- Matching in which every wildcard is filled. -/
def StrictMatch (pattern names : List (List α)) : Prop :=
  LevelsMatch single multi pattern names ∧ WildcardsFilled single multi pattern names

variable {single multi} {level name : List α} {pattern names : List (List α)}

theorem strictMatch_cons_iff (hsingle : level ≠ [single]) (hmulti : level ≠ [multi]) :
    StrictMatch single multi (level :: pattern) (name :: names) ↔
      level = name ∧ StrictMatch single multi pattern names := by
  have hfilled : WildcardsFilled single multi (level :: pattern) (name :: names) ↔
      WildcardsFilled single multi pattern names := by
    simp [WildcardsFilled, hsingle, hmulti]
  rw [StrictMatch, levelsMatch_cons_iff hsingle hmulti, hfilled, and_assoc, StrictMatch]

theorem strictMatch_single_iff (hne : single ≠ multi) :
    StrictMatch single multi ([single] :: pattern) (name :: names) ↔
      name ≠ [] ∧ StrictMatch single multi pattern names := by
  have hfilled : WildcardsFilled single multi ([single] :: pattern) (name :: names) ↔
      name ≠ [] ∧ WildcardsFilled single multi pattern names := by
    simp [WildcardsFilled]
  rw [StrictMatch, levelsMatch_single_iff hne, hfilled, and_left_comm, StrictMatch]

theorem strictMatch_multi_iff :
    StrictMatch single multi [[multi]] names ↔ names.headD [] ≠ [] := by
  constructor
  · exact fun h => h.2.1 (.inr rfl)
  · exact fun h => ⟨.multi names, fun _ => h, trivial⟩

theorem strictMatch_empty_iff :
    StrictMatch single multi ([] :: pattern) (name :: names) ↔
      name = [] ∧ StrictMatch single multi pattern names := by
  rw [strictMatch_cons_iff (List.cons_ne_nil _ _).symm (List.cons_ne_nil _ _).symm, eq_comm]

theorem strictMatch_nil_iff : StrictMatch single multi [] names ↔ names = [] := by
  constructor
  · rintro ⟨h, _⟩
    cases h
    rfl
  · rintro rfl
    exact ⟨.nil, trivial⟩

/-- An empty level matches an empty level only. -/
theorem not_strictMatch_empty (h : level ≠ []) :
    ¬ StrictMatch single multi (level :: pattern) ([] :: names) := by
  rintro ⟨hmatch, hfilled⟩
  cases hmatch with
  | multi _ => exact hfilled.1 (.inr rfl) rfl
  | single _ _ => exact hfilled.1 (.inl rfl) rfl
  | equal _ _ => exact h rfl

/-- A pattern that has levels left wants one. -/
theorem not_strictMatch_nil : ¬ StrictMatch single multi (level :: pattern) [] := by
  rintro ⟨hmatch, hfilled⟩
  cases hmatch with
  | multi _ => exact hfilled.1 (.inr rfl) rfl

end Strict

/-! ## Symbol by symbol -/

section Symbols

variable [DecidableEq α] {sep single multi a b : α} {pattern word : List α}

/-- A word without wildcard symbols has plain levels only. -/
theorem isPlain_of_mem_levels (hsingle : single ∉ word) (hmulti : multi ∉ word)
    {level : List α} (h : level ∈ levels sep word) : IsPlain single multi level :=
  ⟨fun hmem => hsingle (mem_of_mem_levels sep h hmem),
    fun hmem => hmulti (mem_of_mem_levels sep h hmem)⟩

/-- A pattern is at most about twice as long as a word it matches. -/
theorem LevelsMatch.length_le
    (h : LevelsMatch single multi (levels sep pattern) (levels sep word)) :
    pattern.length ≤ 2 * word.length + 3 := by
  have hle := h.extent_le
  rw [extent_levels, extent_levels] at hle
  omega

/-- Behind a symbol that is no wildcard a pattern is well-formed. -/
theorem WellFormed.of_symbol (hsingle : a ≠ single) (hmulti : a ≠ multi)
    (h : WellFormed single multi (levels sep (a :: pattern))) :
    WellFormed single multi (levels sep pattern) := by
  by_cases ha : a = sep
  · obtain ⟨rest, hlevels, _⟩ := levels_eq_cons sep pattern
    rw [ha, levels_sep, hlevels] at h
    rw [hlevels]
    cases h with
    | cons _ hrest => exact hrest
  · obtain ⟨level, rest, hlevels, htail⟩ := levels_cons_eq sep ha pattern
    rw [hlevels] at h
    rw [htail]
    have hplain := h.isPlain_head (fun heq => hsingle (List.cons.inj heq).1)
      (fun heq => hmulti (List.cons.inj heq).1)
    exact h.replace_head ⟨fun hmem => hplain.1 (List.mem_cons_of_mem _ hmem),
      fun hmem => hplain.2 (List.mem_cons_of_mem _ hmem)⟩

/-- A symbol that is no wildcard is compared. -/
theorem strictMatch_symbol_iff (hsingle : a ≠ single) (hmulti : a ≠ multi)
    (h : WellFormed single multi (levels sep (a :: pattern))) :
    StrictMatch single multi (levels sep (a :: pattern)) (levels sep (b :: word)) ↔
      a = b ∧ StrictMatch single multi (levels sep pattern) (levels sep word) := by
  by_cases ha : a = sep
  · subst ha
    by_cases hb : b = a
    · subst hb
      rw [levels_sep, levels_sep, strictMatch_empty_iff]
      exact and_congr_left' (iff_of_true rfl rfl)
    · obtain ⟨level, rest, hlevels, _⟩ := levels_cons_eq a hb word
      rw [levels_sep, hlevels, strictMatch_empty_iff]
      exact iff_of_false (fun hmatch => List.cons_ne_nil _ _ hmatch.1)
        (fun hmatch => hb hmatch.1.symm)
  · obtain ⟨level, rest, hlevels, htail⟩ := levels_cons_eq sep ha pattern
    by_cases hb : b = sep
    · rw [hb, levels_sep, hlevels]
      exact iff_of_false (not_strictMatch_empty (List.cons_ne_nil _ _)) (fun hmatch => ha hmatch.1)
    · obtain ⟨name, names, hnames, hword⟩ := levels_cons_eq sep hb word
      have hplain : IsPlain single multi (a :: level) := by
        rw [hlevels] at h
        exact h.isPlain_head (fun heq => hsingle (List.cons.inj heq).1)
          (fun heq => hmulti (List.cons.inj heq).1)
      rw [hlevels, hnames, htail, hword,
        strictMatch_cons_iff (fun heq => hsingle (List.cons.inj heq).1)
          (fun heq => hmulti (List.cons.inj heq).1),
        strictMatch_cons_iff, List.cons.injEq, and_assoc]
      · rintro rfl
        exact hplain.1 (List.mem_cons_of_mem _ List.mem_cons_self)
      · rintro rfl
        exact hplain.2 (List.mem_cons_of_mem _ List.mem_cons_self)

/-- Behind the wildcard for one level a pattern is well-formed. -/
theorem WellFormed.of_single (hne : single ≠ multi) (hsep : single ≠ sep)
    (h : WellFormed single multi (levels sep (single :: pattern))) :
    WellFormed single multi (levels sep pattern) := by
  obtain ⟨level, rest, hlevels, htail⟩ := levels_cons_eq sep hsep pattern
  rw [hlevels] at h
  rw [htail]
  refine h.replace_head ?_
  rw [h.single_head hne]
  exact ⟨List.not_mem_nil, List.not_mem_nil⟩

/-- The wildcard for one level wants a symbol and takes what stands before the next
separator. -/
theorem strictMatch_single_symbol_iff (hne : single ≠ multi) (hsep : single ≠ sep) (hb : b ≠ sep)
    (h : WellFormed single multi (levels sep (single :: pattern))) :
    StrictMatch single multi (levels sep (single :: pattern)) (levels sep (b :: word)) ↔
      StrictMatch single multi (levels sep pattern)
        (levels sep (word.dropWhile (· ≠ sep))) := by
  obtain ⟨level, rest, hlevels, htail⟩ := levels_cons_eq sep hsep pattern
  obtain ⟨names, hnames, hdropped⟩ := levels_eq_cons sep word
  rw [hlevels] at h
  rw [hlevels, htail, h.single_head hne, levels_cons sep hb, hnames, hdropped,
    List.modifyHead_cons, strictMatch_single_iff hne, strictMatch_empty_iff]
  exact and_congr_left' (iff_of_true (List.cons_ne_nil _ _) rfl)

/-- The wildcard for all levels wants a symbol, and nothing stands behind it. -/
theorem strictMatch_multi_symbol (hne : single ≠ multi) (hsep : multi ≠ sep) (hb : b ≠ sep)
    (h : WellFormed single multi (levels sep (multi :: pattern))) :
    pattern = [] ∧
      StrictMatch single multi (levels sep (multi :: pattern)) (levels sep (b :: word)) := by
  obtain ⟨level, rest, hlevels, htail⟩ := levels_cons_eq sep hsep pattern
  obtain ⟨name, names, hnames, _⟩ := levels_cons_eq sep hb word
  rw [hlevels] at h
  obtain ⟨rfl, rfl⟩ := h.multi_head hne
  refine ⟨levels_eq_singleton_nil sep htail, ?_⟩
  rw [hlevels, hnames, strictMatch_multi_iff]
  exact List.cons_ne_nil _ _

end Symbols

end MqttClient.Semantics
