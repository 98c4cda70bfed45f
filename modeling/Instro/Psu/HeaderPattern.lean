import Instro.Library.TextParts
import Instro.Psu.Commands

/-!
# Header patterns

The command table writes the header of a command as a pattern: keywords with colons between them, in
brackets where they may be left out, the short form of each in capitals. What a pattern stands for is
said here without the code that reads it; `_split_segments` and `_keyword_forms` read it so.
-/

namespace Instro.Psu

open Instro.Library

variable {keyword form run group text : Text} {keywords : List Text} {c : Char} {n : ℕ}

/-! ## Keywords -/

/-- A keyword: its short form without lower-case letters, and the lower-case letters that the long
form adds. -/
def IsKeyword (keyword : Text) : Prop :=
  keyword ≠ [] ∧ (∀ c ∈ keyword, c ≠ '[' ∧ c ≠ ']' ∧ c ≠ ':') ∧
    ∀ c ∈ keyword.dropWhile fun c => ¬ c.isLower, c.isLower = true

-- the characters of the keyword are gone through, not all there are
instance : DecidablePred IsKeyword := fun keyword =>
  have := @List.decidableBAll Char (fun c => c ≠ '[' ∧ c ≠ ']' ∧ c ≠ ':') inferInstance keyword
  have := @List.decidableBAll Char (fun c => c.isLower = true) inferInstance
    (keyword.dropWhile fun c => ¬ c.isLower)
  inferInstanceAs (Decidable (_ ∧ _ ∧ _))

/-- The short form is the keyword up to its lower-case letters. -/
def ShortForm (keyword form : Text) : Prop :=
  ∃ rest, keyword = form ++ rest ∧ (∀ c ∈ form, c.isLower = false) ∧ ∀ c ∈ rest, c.isLower = true

/-- The long form is the whole keyword in capitals. -/
def LongForm (keyword form : Text) : Prop := form = keyword.map Char.toUpper

def IsForm (keyword form : Text) : Prop := ShortForm keyword form ∨ LongForm keyword form

theorem shortForm_iff (hkeyword : IsKeyword keyword) :
    ShortForm keyword form ↔ form = keyword.takeWhile fun c => ¬ c.isLower := by
  constructor
  · rintro ⟨rest, rfl, hform, hrest⟩
    rw [List.takeWhile_append_of_pos (by simpa using hform)]
    cases rest with
    | nil => simp
    | cons c rest => simp [hrest c List.mem_cons_self]
  · rintro rfl
    refine ⟨keyword.dropWhile fun c => ¬ c.isLower, List.takeWhile_append_dropWhile.symm, ?_,
      hkeyword.2.2⟩
    intro c hc
    simpa using List.mem_takeWhile_imp hc

theorem toUpper_of_not_isLower (h : c.isLower = false) : c.toUpper = c := by
  unfold Char.toUpper
  split_ifs with hlower
  · have hmem : c.isLower = true := by
      unfold Char.isLower
      rw [Bool.and_eq_true, decide_eq_true_eq, decide_eq_true_eq]
      exact hlower
    rw [h] at hmem
    cases hmem
  · rfl

theorem isAlpha_eq (c : Char) : c.isAlpha = (c.isUpper || c.isLower) := rfl

/-- `_keyword_forms` finds the short and the long form of a keyword. -/
theorem mem_keywordForms (hkeyword : IsKeyword keyword) :
    form ∈ SCPICommand.keywordForms keyword ↔ IsForm keyword form := by
  have hshort : (keyword.filter fun c => ¬ c.isAlpha ∨ c.isUpper).map Char.toUpper =
      keyword.takeWhile fun c => ¬ c.isLower := by
    have hfront : ∀ c ∈ keyword.takeWhile fun c => ¬ c.isLower, c.isLower = false := by
      intro c hc
      simpa using List.mem_takeWhile_imp hc
    conv_lhs => rw [← List.takeWhile_append_dropWhile (p := fun c : Char => ¬ c.isLower)
      (l := keyword)]
    rw [List.filter_append, List.filter_eq_self.mpr, List.filter_eq_nil_iff.mpr, List.append_nil]
    · refine (List.map_congr_left fun c hc => toUpper_of_not_isLower (hfront c hc)).trans ?_
      exact List.map_id' _
    · intro c hc
      have hlower := hkeyword.2.2 c hc
      have hupper : c.isUpper = false := by
        unfold Char.isLower at hlower
        unfold Char.isUpper
        simp only [ge_iff_le, Bool.and_eq_true, decide_eq_true_eq, UInt32.le_iff_toNat_le] at hlower
        simp only [ge_iff_le, decide_eq_false_iff_not, UInt32.le_iff_toNat_le]
        have ha : 'a'.val.toNat = 97 := rfl
        have hz : 'Z'.val.toNat = 90 := rfl
        omega
      simp [isAlpha_eq, hlower, hupper]
    · intro c hc
      cases hupper : c.isUpper <;> simp [isAlpha_eq, hfront c hc, hupper]
  unfold IsForm
  rw [shortForm_iff hkeyword]
  unfold SCPICommand.keywordForms LongForm
  dsimp only
  rw [hshort]
  split_ifs with hsame
  · rw [List.mem_singleton, ← hsame, or_self]
  · rw [List.mem_cons, List.mem_singleton]

/-! ## Patterns -/

/-- An optional keyword in front, the required keywords, and those at the end that are optional from
the last one on. -/
structure HeaderPattern where
  lead : Option Text
  required : List Text
  trail : List Text

namespace HeaderPattern

variable {pattern : HeaderPattern}

/-- The keywords at the end in brackets. -/
def writeTrail (trail : List Text) : Text :=
  trail.flatMap fun keyword => ['[', ':'] ++ keyword ++ [']']

/-- How the command table writes a pattern. -/
def written (pattern : HeaderPattern) : Text :=
  (pattern.lead.elim [] fun keyword => ['['] ++ keyword ++ [':', ']']) ++
    (PyText.join ':' pattern.required ++ writeTrail pattern.trail)

/-- There are required keywords, and they and the others are keywords. -/
def WellFormed (pattern : HeaderPattern) : Prop :=
  pattern.required ≠ [] ∧
    ∀ keyword ∈ pattern.lead.toList ++ pattern.required ++ pattern.trail, IsKeyword keyword

instance : DecidablePred WellFormed := fun _ => inferInstanceAs (Decidable (_ ∧ _))

/-- The keywords of a header: the one in front or not, the required ones, and the first few of those
at the end. -/
def Layout (pattern : HeaderPattern) (keywords : List Text) : Prop :=
  ∃ lead trail, (lead = [] ∨ lead = pattern.lead.toList) ∧ trail <+: pattern.trail ∧
    keywords = lead ++ pattern.required ++ trail

theorem Layout.mem (h : pattern.Layout keywords) :
    ∀ keyword ∈ keywords, keyword ∈ pattern.lead.toList ++ pattern.required ++ pattern.trail := by
  obtain ⟨lead, trail, hlead, htrail, rfl⟩ := h
  intro keyword hmem
  simp only [List.mem_append] at hmem ⊢
  rcases hmem with (hmem | hmem) | hmem
  · rcases hlead with rfl | rfl
    · cases hmem
    · exact .inl (.inl hmem)
  · exact .inl (.inr hmem)
  · exact .inr (htrail.mem hmem)

end HeaderPattern

/-! ## Reading a pattern -/

section Reading

variable {rest : Text} {required trail : List Text}

open SCPICommand

theorem findGroups_nil (n : ℕ) : findGroups n [] = [] := by
  cases n <;> rfl

/-- A group in brackets. -/
theorem findGroups_group (hne : group ≠ []) (h : ∀ c ∈ group, c ≠ ']') :
    findGroups (n + 1) ('[' :: (group ++ ']' :: rest)) = (group, true) :: findGroups n rest := by
  have htake : (group ++ ']' :: rest).takeWhile (fun c => decide (c ≠ ']')) = group := by
    rw [List.takeWhile_append_of_pos (by simpa using h)]
    simp
  have hdrop : (group ++ ']' :: rest).dropWhile (fun c => decide (c ≠ ']')) = ']' :: rest := by
    rw [List.dropWhile_append_of_pos (by simpa using h)]
    simp
  rw [findGroups, if_pos rfl]
  dsimp only
  rw [htake, hdrop]
  cases group with
  | nil => exact absurd rfl hne
  | cons c group => rfl

/-- A run up to the next bracket. -/
theorem findGroups_run (hne : run ≠ []) (h : ∀ c ∈ run, c ≠ '[' ∧ c ≠ ']')
    (hrest : rest = [] ∨ ∃ tail, rest = '[' :: tail) :
    findGroups (n + 1) (run ++ rest) = (run, false) :: findGroups n rest := by
  have htake : (run ++ rest).takeWhile (fun c => decide (c ≠ '[' ∧ c ≠ ']')) = run := by
    rw [List.takeWhile_append_of_pos (by simpa using h)]
    rcases hrest with rfl | ⟨tail, rfl⟩ <;> simp
  have hdrop : (run ++ rest).dropWhile (fun c => decide (c ≠ '[' ∧ c ≠ ']')) = rest := by
    rw [List.dropWhile_append_of_pos (by simpa using h)]
    rcases hrest with rfl | ⟨tail, rfl⟩ <;> simp
  cases run with
  | nil => exact absurd rfl hne
  | cons c run =>
    obtain ⟨hopen, hclose⟩ := h c List.mem_cons_self
    rw [List.cons_append] at htake hdrop ⊢
    rw [findGroups, if_neg hopen, if_neg hclose]
    dsimp only
    rw [htake, hdrop]

theorem writeTrail_cons (keyword : Text) (trail : List Text) :
    HeaderPattern.writeTrail (keyword :: trail) =
      '[' :: ((':' :: keyword) ++ ']' :: HeaderPattern.writeTrail trail) := by
  unfold HeaderPattern.writeTrail
  simp

theorem findGroups_trail (htrail : ∀ keyword ∈ trail, IsKeyword keyword) (hn : trail.length ≤ n) :
    findGroups n (HeaderPattern.writeTrail trail) =
      trail.map fun keyword => (':' :: keyword, true) := by
  induction trail generalizing n with
  | nil => exact findGroups_nil n
  | cons keyword trail ih =>
    rw [List.forall_mem_cons] at htrail
    obtain ⟨n, rfl⟩ := Nat.exists_eq_add_of_le' (Nat.le_of_add_left_le hn)
    have hplain : ∀ c ∈ ':' :: keyword, c ≠ ']' := by
      intro c hc
      rcases List.mem_cons.mp hc with rfl | hc
      · decide
      · exact (htrail.1.2.1 c hc).2.1
    rw [writeTrail_cons, findGroups_group (List.cons_ne_nil _ _) hplain, List.map_cons,
      ih htrail.2 (Nat.le_of_succ_le_succ hn)]

/-- What is left of a group without its colons, as keywords. -/
def keywordsOf (text : Text) : List Text :=
  (((text.dropWhile (· = ':')).rdropWhile (· = ':')).splitOn ':').filter (· ≠ [])

theorem segments_eq (cmd : SCPICommand) :
    cmd.segments = (findGroups cmd.command.toList.length cmd.command.toList).flatMap fun group =>
      (keywordsOf group.1).map (·, group.2) := rfl

/-- Keywords are read back from the text they make, with a colon in front of it or behind it. -/
theorem keywordsOf_join (hne : keywords ≠ []) (h : ∀ keyword ∈ keywords, IsKeyword keyword) :
    keywordsOf (PyText.join ':' keywords) = keywords ∧
      keywordsOf (':' :: PyText.join ':' keywords) = keywords ∧
      keywordsOf (PyText.join ':' keywords ++ [':']) = keywords := by
  have hcolon : ∀ keyword ∈ keywords, ':' ∉ keyword := fun keyword hmem hc =>
    ((h keyword hmem).2.1 ':' hc).2.2 rfl
  have hfront : (PyText.join ':' keywords).dropWhile (· = ':') = PyText.join ':' keywords := by
    have hsplit := PyText.splitOn_join hcolon hne
    cases hjoin : PyText.join ':' keywords with
    | nil => rfl
    | cons c text =>
      refine List.dropWhile_cons_of_neg ?_
      intro hc
      rw [hjoin, List.splitOn_cons_eq_if_modifyHead, if_pos (by simpa using hc)] at hsplit
      exact (h [] (by simp [← hsplit])).1 rfl
  have hback : (PyText.join ':' keywords).rdropWhile (· = ':') = PyText.join ':' keywords := by
    refine List.rdropWhile_eq_self_iff.mpr fun hjoin => ?_
    obtain ⟨front, last, rfl⟩ := (List.eq_nil_or_concat' keywords).resolve_left hne
    have hlast : last ≠ [] := (h last (by simp)).1
    have hmem := List.getLast_mem hlast
    have hconcat : PyText.join ':' (front ++ [last]) = PyText.join ':' (front ++ [[]]) ++ last := by
      rw [PyText.join_concat_append, List.nil_append]
    simp only [hconcat, List.getLast_append_of_ne_nil _ hlast]
    simpa using ((h last (by simp)).2.1 _ hmem).2.2
  have hsplit : ((PyText.join ':' keywords).splitOn ':').filter (· ≠ []) = keywords := by
    rw [PyText.splitOn_join hcolon hne, List.filter_eq_self]
    intro keyword hmem
    simpa using (h keyword hmem).1
  unfold keywordsOf
  refine ⟨?_, ?_, ?_⟩
  · rw [hfront, hback, hsplit]
  · rw [List.dropWhile_cons_of_pos (by simp), hfront, hback, hsplit]
  · have hjoin : PyText.join ':' keywords ≠ [] := by
      intro hnil
      have hparts := PyText.splitOn_join hcolon hne
      rw [hnil] at hparts
      exact (h [] (by simp [← hparts])).1 rfl
    have hfront : (PyText.join ':' keywords ++ [':']).dropWhile (· = ':') =
        PyText.join ':' keywords ++ [':'] := by
      cases htext : PyText.join ':' keywords with
      | nil => exact absurd htext hjoin
      | cons c text =>
        rw [htext] at hfront
        refine List.dropWhile_cons_of_neg fun hc => ?_
        rw [List.dropWhile_cons_of_pos (p := fun c => decide (c = ':')) hc] at hfront
        have hlength := (List.length_dropWhile_le (fun c => decide (c = ':')) text)
        rw [hfront, List.length_cons] at hlength
        omega
    rw [hfront, List.rdropWhile_concat_pos _ _ _ (by simp), hback, hsplit]

theorem keywordsOf_keyword (h : IsKeyword keyword) :
    keywordsOf (':' :: keyword) = [keyword] ∧ keywordsOf (keyword ++ [':']) = [keyword] := by
  have hjoin : PyText.join ':' [keyword] = keyword := List.intercalate_singleton
  have hkeywords : ∀ keyword' ∈ [keyword], IsKeyword keyword' := by simpa using h
  obtain ⟨-, hfront, hback⟩ := keywordsOf_join (List.cons_ne_nil _ _) hkeywords
  rw [hjoin] at hfront hback
  exact ⟨hfront, hback⟩

theorem flatMap_trail (htrail : ∀ keyword ∈ trail, IsKeyword keyword) :
    ((trail.map fun keyword => (':' :: keyword, true)).flatMap fun group : Text × Bool =>
      (keywordsOf group.1).map (·, group.2)) = trail.map (·, true) := by
  induction trail with
  | nil => rfl
  | cons keyword trail ih =>
    rw [List.forall_mem_cons] at htrail
    rw [List.map_cons, List.flatMap_cons, ih htrail.2]
    dsimp only
    rw [(keywordsOf_keyword htrail.1).1]
    rfl

theorem length_le_writeTrail (trail : List Text) :
    trail.length ≤ (HeaderPattern.writeTrail trail).length := by
  induction trail with
  | nil => exact Nat.zero_le _
  | cons keyword trail ih =>
    rw [writeTrail_cons]
    simp only [List.length_cons, List.length_append]
    omega

variable {pattern : HeaderPattern} {cmd : SCPICommand}

/-- The required keywords and those at the end. -/
theorem findGroups_required (hne : required ≠ [])
    (hrequired : ∀ keyword ∈ required, IsKeyword keyword)
    (htrail : ∀ keyword ∈ trail, IsKeyword keyword)
    (hn : (PyText.join ':' required ++ HeaderPattern.writeTrail trail).length ≤ n) :
    findGroups n (PyText.join ':' required ++ HeaderPattern.writeTrail trail) =
      (PyText.join ':' required, false) :: trail.map fun keyword => (':' :: keyword, true) := by
  have hplain : ∀ c ∈ PyText.join ':' required, c ≠ '[' ∧ c ≠ ']' := by
    intro c hc
    rcases PyText.mem_join hc with rfl | ⟨keyword, hmem, hc⟩
    · decide
    · obtain ⟨hopen, hclose, -⟩ := (hrequired keyword hmem).2.1 c hc
      exact ⟨hopen, hclose⟩
  have hjoin : PyText.join ':' required ≠ [] := by
    intro hnil
    have hself := (keywordsOf_join hne hrequired).1
    rw [hnil] at hself
    exact hne hself.symm
  have hpos := List.length_pos_iff.mpr hjoin
  have hlength := length_le_writeTrail trail
  rw [List.length_append] at hn
  obtain ⟨n, rfl⟩ : ∃ m, n = m + 1 := ⟨n - 1, by omega⟩
  rw [findGroups_run hjoin hplain, findGroups_trail htrail (by omega)]
  cases trail with
  | nil => exact .inl rfl
  | cons keyword trail => exact .inr ⟨_, writeTrail_cons keyword trail⟩

/-- `_segments` reads the keywords of a pattern, and which of them are optional. -/
theorem segments_of_written (hpattern : pattern.WellFormed)
    (hwritten : cmd.command.toList = pattern.written) :
    cmd.segments = pattern.lead.toList.map (·, true) ++
      (pattern.required.map (·, false) ++ pattern.trail.map (·, true)) := by
  obtain ⟨lead, required, trail⟩ := pattern
  obtain ⟨hne, hkeywords⟩ := hpattern
  dsimp only at hne hkeywords hwritten ⊢
  rw [List.forall_mem_append, List.forall_mem_append] at hkeywords
  obtain ⟨⟨hlead, hrequired⟩, htrail⟩ := hkeywords
  rw [segments_eq, hwritten]
  unfold HeaderPattern.written
  dsimp only
  cases lead with
  | none =>
    show List.flatMap _ (findGroups (PyText.join ':' required ++ HeaderPattern.writeTrail trail).length
      (PyText.join ':' required ++ HeaderPattern.writeTrail trail)) = _
    rw [findGroups_required hne hrequired htrail le_rfl, List.flatMap_cons, flatMap_trail htrail]
    dsimp only
    rw [(keywordsOf_join hne hrequired).1]
    rfl
  | some keyword =>
    have hkeyword : IsKeyword keyword := hlead keyword (by simp)
    have hplain : ∀ c ∈ keyword ++ [':'], c ≠ ']' := by
      intro c hc
      rcases List.mem_append.mp hc with hc | hc
      · exact (hkeyword.2.1 c hc).2.1
      · obtain rfl := List.mem_singleton.mp hc
        decide
    have htext : (some keyword).elim [] (fun keyword => ['['] ++ keyword ++ [':', ']']) ++
        (PyText.join ':' required ++ HeaderPattern.writeTrail trail) =
        '[' :: ((keyword ++ [':']) ++ ']' ::
          (PyText.join ':' required ++ HeaderPattern.writeTrail trail)) := by
      simp
    rw [htext, List.length_cons, findGroups_group (by simp) hplain,
      findGroups_required hne hrequired htrail (by simp; omega), List.flatMap_cons,
      List.flatMap_cons, flatMap_trail htrail]
    dsimp only
    rw [(keywordsOf_join hne hrequired).1, (keywordsOf_keyword hkeyword).2]
    rfl

theorem takeWhile_optional (hne : required ≠ []) (lead trail : List Text) :
    let segments := lead.map (·, true) ++ (required.map (·, false) ++ trail.map (·, true))
    segments.takeWhile (·.2) = lead.map (·, true) ∧
      segments.dropWhile (·.2) = required.map (·, false) ++ trail.map (·, true) := by
  obtain ⟨keyword, required, rfl⟩ := List.exists_cons_of_ne_nil hne
  dsimp only
  rw [List.takeWhile_append_of_pos (by simp), List.dropWhile_append_of_pos (by simp)]
  simp

theorem rdropWhile_optional (hne : required ≠ []) (trail : List Text) :
    (required.map (·, false) ++ trail.map (·, true)).rdropWhile (·.2) = required.map (·, false) ∧
      (required.map (·, false) ++ trail.map (·, true)).rtakeWhile (·.2) = trail.map (·, true) := by
  induction trail using List.reverseRecOn with
  | nil =>
    obtain ⟨front, last, rfl⟩ := (List.eq_nil_or_concat' required).resolve_left hne
    simp
  | append_singleton trail keyword ih =>
    rw [List.map_append, List.map_singleton, ← List.append_assoc,
      List.rdropWhile_concat_pos _ _ _ rfl, List.rtakeWhile_concat_pos _ _ _ rfl, ih.1, ih.2]
    exact ⟨rfl, rfl⟩

/-- **Reading a pattern.** `_split_segments` takes a pattern apart. -/
theorem splitSegments_of_written (hpattern : pattern.WellFormed)
    (hwritten : cmd.command.toList = pattern.written) :
    cmd.splitSegments = .ok (pattern.lead.toList, pattern.required, pattern.trail) := by
  have hne := hpattern.1
  obtain ⟨htake, hdrop⟩ := takeWhile_optional hne pattern.lead.toList pattern.trail
  obtain ⟨hrequired, hstop⟩ := rdropWhile_optional hne pattern.trail
  unfold splitSegments
  dsimp only
  rw [segments_of_written hpattern hwritten, htake, hdrop, hrequired, hstop, if_neg (by simpa using hne),
    if_neg (by simp)]
  simp [Function.comp_def]

end Reading

/-! ## The headers of a command -/

namespace SCPICommand

/-- The command is written as the pattern. -/
def WrittenAs (cmd : SCPICommand) (pattern : HeaderPattern) : Prop :=
  pattern.WellFormed ∧ cmd.command.toList = pattern.written

/-- The keywords of a header of the command. -/
def Layout (cmd : SCPICommand) (keywords : List Text) : Prop :=
  ∃ pattern, cmd.WrittenAs pattern ∧ pattern.Layout keywords

/-- A path spells each keyword in one of its forms. -/
def Spelling : List Text → List Text → Prop := List.Forall₂ IsForm

theorem spelling_iff {path : List Text} (h : ∀ keyword ∈ keywords, IsKeyword keyword) :
    Spelling keywords path ↔
      List.Forall₂ (fun keyword form => form ∈ keywordForms keyword) keywords path := by
  unfold Spelling
  induction keywords generalizing path with
  | nil => simp
  | cons keyword keywords ih =>
    rw [List.forall_mem_cons] at h
    cases path with
    | nil => simp
    | cons form path =>
      rw [List.forall₂_cons, List.forall₂_cons, mem_keywordForms h.1, ih h.2]

variable {cmd : SCPICommand} {pattern : HeaderPattern}

/-- A command is written as one pattern. -/
theorem WrittenAs.unique {pattern' : HeaderPattern} (h : cmd.WrittenAs pattern)
    (h' : cmd.WrittenAs pattern') : pattern = pattern' := by
  have hsplit := splitSegments_of_written h.1 h.2
  rw [splitSegments_of_written h'.1 h'.2] at hsplit
  obtain ⟨lead, required, trail⟩ := pattern
  obtain ⟨lead', required', trail'⟩ := pattern'
  simp only [Except.ok.injEq, Prod.mk.injEq] at hsplit
  obtain ⟨hlead, rfl, rfl⟩ := hsplit
  have hhead := congrArg List.head? hlead
  rw [Option.head?_toList, Option.head?_toList] at hhead
  rw [hhead]

theorem Layout.isKeyword (h : cmd.Layout keywords) : ∀ keyword ∈ keywords, IsKeyword keyword := by
  obtain ⟨pattern, hwritten, hlayout⟩ := h
  exact fun keyword hmem => hwritten.1.2 keyword (hlayout.mem keyword hmem)

end SCPICommand

end Instro.Psu
