import Instro.Psu.HeaderPattern

/-!
# Headers

What a command may be called, read off its segments, and the command table as exactly these names:
the spellings of two commands are never the same, so the order of registration plays no part.
-/

namespace Instro.Psu

open Instro.Library

namespace SCPICommand

/-! ## Layouts -/

/-- The layouts of a command, as `headers` goes through them. -/
def layouts (cmd : SCPICommand) : List (List Text) :=
  match cmd.splitSegments with
  | .ok (start, required, stop) =>
    let headers := (List.range (stop.length + 1)).map fun count => required ++ stop.take count
    if start ≠ [] then headers ++ headers.map (start ++ ·) else headers
  | .error _ => []

variable {cmd : SCPICommand} {key header : Text} {handler : Handler} {keywords path : List Text}

theorem mem_required {required stop : List Text} :
    keywords ∈ ((List.range (stop.length + 1)).map fun count => required ++ stop.take count) ↔
      ∃ trail, trail <+: stop ∧ keywords = required ++ trail := by
  rw [List.mem_map]
  constructor
  · rintro ⟨count, -, rfl⟩
    exact ⟨stop.take count, List.take_prefix count stop, rfl⟩
  · rintro ⟨trail, htrail, rfl⟩
    refine ⟨trail.length, List.mem_range.mpr ?_, ?_⟩
    · have hlength := htrail.length_le
      omega
    · rw [← List.prefix_iff_eq_take.mp htrail]

/-- The layouts that `headers` goes through are those of the pattern of the command. -/
theorem mem_layouts {pattern : HeaderPattern} (hwritten : cmd.WrittenAs pattern) :
    keywords ∈ cmd.layouts ↔ cmd.Layout keywords := by
  have hlayout : cmd.Layout keywords ↔ pattern.Layout keywords := by
    constructor
    · rintro ⟨pattern', hwritten', h⟩
      rwa [hwritten.unique hwritten']
    · exact fun h => ⟨pattern, hwritten, h⟩
  rw [hlayout]
  unfold layouts HeaderPattern.Layout
  rw [splitSegments_of_written hwritten.1 hwritten.2]
  obtain ⟨lead, required, stop⟩ := pattern
  generalize lead.toList = start
  dsimp only
  constructor
  · intro h
    split_ifs at h with hstart
    · rcases List.mem_append.mp h with h | h
      · obtain ⟨trail, htrail, rfl⟩ := mem_required.mp h
        exact ⟨[], trail, .inl rfl, htrail, rfl⟩
      · obtain ⟨rest, hrest, rfl⟩ := List.mem_map.mp h
        obtain ⟨trail, htrail, rfl⟩ := mem_required.mp hrest
        exact ⟨start, trail, .inr rfl, htrail, (List.append_assoc start required trail).symm⟩
    · obtain ⟨trail, htrail, rfl⟩ := mem_required.mp h
      exact ⟨[], trail, .inl rfl, htrail, rfl⟩
  · rintro ⟨lead, trail, hlead, htrail, rfl⟩
    have hrequired := (@mem_required (required ++ trail) required stop).mpr ⟨trail, htrail, rfl⟩
    split_ifs with hstart
    · rcases hlead with rfl | rfl
      · exact List.mem_append_left _ hrequired
      · apply List.mem_append_right
        exact List.mem_map.mpr ⟨_, hrequired, (List.append_assoc lead required trail).symm⟩
    · have hnil : lead = [] := hlead.elim id fun h => h.trans (not_not.mp hstart)
      rwa [hnil]

/-! ## Spellings -/

theorem mem_foldl_paths {parts : List Text} {paths : List (List Text)} :
    path ∈ parts.foldl (fun paths part =>
      paths.flatMap fun path => (keywordForms part).map fun form => path ++ [form]) paths ↔
        ∃ front ∈ paths, ∃ rest,
          List.Forall₂ (fun keyword form => form ∈ keywordForms keyword) parts rest ∧
            path = front ++ rest := by
  induction parts generalizing paths with
  | nil =>
    constructor
    · intro h
      exact ⟨path, h, [], List.Forall₂.nil, (List.append_nil path).symm⟩
    · rintro ⟨front, hfront, rest, hrest, rfl⟩
      obtain rfl := List.forall₂_nil_left_iff.mp hrest
      rwa [List.append_nil]
  | cons part parts ih =>
    rw [List.foldl_cons, ih]
    constructor
    · rintro ⟨front, hfront, rest, hrest, rfl⟩
      obtain ⟨front, hmem, hfront⟩ := List.mem_flatMap.mp hfront
      obtain ⟨form, hform, rfl⟩ := List.mem_map.mp hfront
      exact ⟨front, hmem, form :: rest, List.Forall₂.cons hform hrest, by simp⟩
    · rintro ⟨front, hmem, rest, hrest, rfl⟩
      obtain ⟨form, rest, hform, hspelling, rfl⟩ := List.forall₂_cons_left_iff.mp hrest
      refine ⟨front ++ [form], ?_, rest, hspelling, by simp⟩
      exact List.mem_flatMap.mpr ⟨front, hmem, List.mem_map.mpr ⟨form, hform, rfl⟩⟩

theorem mem_pathsFor {parts : List Text} (h : ∀ keyword ∈ parts, IsKeyword keyword) :
    path ∈ pathsFor parts ↔ Spelling parts path := by
  unfold pathsFor
  rw [mem_foldl_paths, spelling_iff h]
  simp

/-- The headers of a command are the spellings of its layouts. -/
theorem mem_headers {pattern : HeaderPattern} (hwritten : cmd.WrittenAs pattern)
    {headers : List Text} (h : cmd.headers = .ok headers) :
    header ∈ headers ↔
      ∃ keywords, cmd.Layout keywords ∧ ∃ path, Spelling keywords path ∧
        header = PyText.join ':' path := by
  obtain ⟨⟨start, required, stop⟩, hsegments, h⟩ := bind_eq_ok.mp h
  have hlayouts : headers = cmd.layouts.flatMap fun header =>
      (pathsFor header).map (PyText.join ':') := by
    unfold layouts
    rw [hsegments]
    exact (Except.ok.inj h).symm
  rw [hlayouts]
  simp only [List.mem_flatMap, List.mem_map, mem_layouts hwritten]
  constructor
  · rintro ⟨keywords, hkeywords, path, hpath, rfl⟩
    exact ⟨keywords, hkeywords, path, (mem_pathsFor hkeywords.isKeyword).mp hpath, rfl⟩
  · rintro ⟨keywords, hkeywords, path, hpath, rfl⟩
    exact ⟨keywords, hkeywords, path, (mem_pathsFor hkeywords.isKeyword).mpr hpath, rfl⟩

/-! ## The table -/

/-- The keys that a command puts into the table. -/
def Entry (cmd : SCPICommand) (key : Text) (handler : Handler) : Prop :=
  ∃ keywords, cmd.Layout keywords ∧ ∃ path, Spelling keywords path ∧
    (cmd.write = some handler ∧ key = PyText.join ':' path ∨
      cmd.query = some handler ∧ key = PyText.join ':' path ++ ['?'])

/-- The key of a header, for one of the two forms. -/
def KeyOf (cmd : SCPICommand) (header key : Text) (handler : Handler) : Prop :=
  cmd.write = some handler ∧ key = header ∨ cmd.query = some handler ∧ key = header ++ ['?']

theorem mem_enter {table : List (Text × Handler)} :
    (key, handler) ∈ (let table := cmd.write.elim table fun handler => (header, handler) :: table
      cmd.query.elim table fun handler => (header ++ ['?'], handler) :: table) ↔
        (key, handler) ∈ table ∨ cmd.KeyOf header key handler := by
  unfold KeyOf
  cases cmd.write with
  | none => cases cmd.query <;> simp [eq_comm, and_comm, or_comm]
  | some write => cases cmd.query <;> simp [eq_comm, and_comm, or_comm, or_left_comm, or_assoc]

theorem mem_register {pattern : HeaderPattern} (hwritten : cmd.WrittenAs pattern)
    {table table' : List (Text × Handler)} (h : register table cmd = .ok table') :
    (key, handler) ∈ table' ↔ (key, handler) ∈ table ∨ cmd.Entry key handler := by
  obtain ⟨headers, hheaders, h⟩ := bind_eq_ok.mp h
  obtain rfl := Except.ok.inj h
  have hfold : ∀ (headers : List Text) (table : List (Text × Handler)),
      (key, handler) ∈ headers.foldl (fun table header =>
        let table := cmd.write.elim table fun handler => (header, handler) :: table
        cmd.query.elim table fun handler => (header ++ ['?'], handler) :: table) table ↔
          (key, handler) ∈ table ∨ ∃ header ∈ headers, cmd.KeyOf header key handler := by
    intro headers
    induction headers with
    | nil => simp
    | cons header headers ih =>
      intro table
      rw [List.foldl_cons, ih, mem_enter, or_assoc, List.exists_mem_cons_iff]
  rw [hfold]
  apply or_congr_right
  unfold Entry
  constructor
  · rintro ⟨header, hheader, hkey⟩
    obtain ⟨keywords, hlayout, path, hpath, rfl⟩ := (mem_headers hwritten hheaders).mp hheader
    exact ⟨keywords, hlayout, path, hpath, hkey⟩
  · rintro ⟨keywords, hlayout, path, hpath, hkey⟩
    exact ⟨_, (mem_headers hwritten hheaders).mpr ⟨keywords, hlayout, path, hpath, rfl⟩, hkey⟩

end SCPICommand

/-- A word without marks. -/
def PlainWord (form : Text) : Prop := form ≠ [] ∧ ∀ c ∈ form, ¬ PyText.IsMark c

-- the characters of the word are gone through, not all there are
instance : DecidablePred PlainWord := fun form =>
  have := @List.decidableBAll Char (fun c => ¬ PyText.IsMark c) inferInstance form
  inferInstanceAs (Decidable (_ ∧ _))

/-- The keywords of the table are words without marks. -/
theorem layouts_plain : ∀ cmd ∈ scpiCommands, ∀ keywords ∈ cmd.layouts, keywords ≠ [] ∧
    ∀ keyword ∈ keywords, ∀ form ∈ SCPICommand.keywordForms keyword, PlainWord form := by
  decide +kernel

/-- Layouts of different commands have no spelling in common. -/
theorem layouts_differ : ∀ cmd ∈ scpiCommands, ∀ keywords ∈ cmd.layouts, ∀ cmd' ∈ scpiCommands,
    ∀ keywords' ∈ cmd'.layouts,
      List.Forall₂ (fun keyword keyword' => ∃ form ∈ SCPICommand.keywordForms keyword,
        form ∈ SCPICommand.keywordForms keyword') keywords keywords' →
          cmd.write = cmd'.write ∧ cmd.query = cmd'.query := by
  decide +kernel

/-- The pattern that a command is taken apart into. -/
def SCPICommand.pattern (cmd : SCPICommand) : HeaderPattern :=
  match cmd.splitSegments with
  | .ok (start, required, stop) => ⟨start.head?, required, stop⟩
  | .error _ => ⟨none, [], []⟩

/-- Every command of the table is written as a pattern. -/
theorem writtenAs_pattern : ∀ cmd ∈ scpiCommands, cmd.WrittenAs cmd.pattern := by
  have hpatterns : ∀ cmd ∈ scpiCommands,
      cmd.pattern.WellFormed ∧ cmd.command.toList = cmd.pattern.written := by decide +kernel
  exact hpatterns

section Table

variable {cmd cmd' : SCPICommand} {key : Text} {handler handler' : Handler}
  {keywords keywords' path path' : List Text}

/-- The forms of the keywords of a command are words without marks. -/
theorem forms_plain (hcmd : cmd ∈ scpiCommands) (hlayout : cmd.Layout keywords) :
    ∀ keyword ∈ keywords, ∀ form, IsForm keyword form → PlainWord form := by
  obtain ⟨-, hplain⟩ := layouts_plain cmd hcmd keywords
    ((SCPICommand.mem_layouts (writtenAs_pattern cmd hcmd)).mpr hlayout)
  intro keyword hmem form hform
  exact hplain keyword hmem form ((mem_keywordForms (hlayout.isKeyword keyword hmem)).mpr hform)

theorem spelling_plain (hcmd : cmd ∈ scpiCommands) (hlayout : cmd.Layout keywords)
    (hpath : SCPICommand.Spelling keywords path) : path ≠ [] ∧ ∀ form ∈ path, PlainWord form := by
  obtain ⟨hne, -⟩ := layouts_plain cmd hcmd keywords
    ((SCPICommand.mem_layouts (writtenAs_pattern cmd hcmd)).mpr hlayout)
  have hplain := forms_plain hcmd hlayout
  constructor
  · rintro rfl
    exact hne (List.forall₂_nil_right_iff.mp hpath)
  · clear hne hlayout
    induction hpath with
    | nil => exact fun _ h => absurd h List.not_mem_nil
    | cons hform _ ih =>
      rw [List.forall_mem_cons] at hplain ⊢
      exact ⟨hplain.1 _ hform, ih hplain.2⟩

/-- Commands that share a spelling share their handlers. -/
theorem handlers_of_spelling (hcmd : cmd ∈ scpiCommands) (hcmd' : cmd' ∈ scpiCommands)
    (hlayout : cmd.Layout keywords) (hlayout' : cmd'.Layout keywords')
    (hpath : SCPICommand.Spelling keywords path) (hpath' : SCPICommand.Spelling keywords' path) :
    cmd.write = cmd'.write ∧ cmd.query = cmd'.query := by
  apply layouts_differ cmd hcmd keywords
    ((SCPICommand.mem_layouts (writtenAs_pattern cmd hcmd)).mpr hlayout) cmd' hcmd' keywords'
    ((SCPICommand.mem_layouts (writtenAs_pattern cmd' hcmd')).mpr hlayout')
  rw [SCPICommand.spelling_iff hlayout.isKeyword] at hpath
  rw [SCPICommand.spelling_iff hlayout'.isKeyword] at hpath'
  clear hlayout hlayout'
  induction hpath generalizing keywords' with
  | nil =>
    obtain rfl := List.forall₂_nil_right_iff.mp hpath'
    exact List.Forall₂.nil
  | cons hform _ ih =>
    obtain ⟨keyword', keywords', hform', hrest, rfl⟩ := List.forall₂_cons_right_iff.mp hpath'
    exact List.Forall₂.cons ⟨_, hform, hform'⟩ (ih hrest)

/-- A spelling has no question mark. -/
theorem question_not_mem_join (hplain : ∀ form ∈ path, PlainWord form) :
    '?' ∉ PyText.join ':' path := by
  intro h
  rcases PyText.mem_join h with h | ⟨form, hform, h⟩
  · exact absurd h (by decide)
  · exact (hplain form hform).2 '?' h (.inr (.inr rfl))

theorem join_path_inj (hplain : ∀ form ∈ path, PlainWord form)
    (hplain' : ∀ form ∈ path', PlainWord form) (hne : path ≠ []) (hne' : path' ≠ [])
    (h : PyText.join ':' path = PyText.join ':' path') : path = path' :=
  PyText.join_inj (fun form hform hcolon => (hplain form hform).2 ':' hcolon (.inr (.inl rfl)))
    (fun form hform hcolon => (hplain' form hform).2 ':' hcolon (.inr (.inl rfl))) hne hne' h

/-- A key has one handler. -/
theorem handler_unique (hcmd : cmd ∈ scpiCommands) (hcmd' : cmd' ∈ scpiCommands)
    (hentry : cmd.Entry key handler) (hentry' : cmd'.Entry key handler') : handler = handler' := by
  obtain ⟨keywords, hlayout, path, hpath, hkey⟩ := hentry
  obtain ⟨keywords', hlayout', path', hpath', hkey'⟩ := hentry'
  obtain ⟨hne, hplain⟩ := spelling_plain hcmd hlayout hpath
  obtain ⟨hne', hplain'⟩ := spelling_plain hcmd' hlayout' hpath'
  rcases hkey with ⟨hwrite, rfl⟩ | ⟨hquery, rfl⟩ <;>
    rcases hkey' with ⟨hwrite', heq⟩ | ⟨hquery', heq⟩
  · obtain rfl := join_path_inj hplain hplain' hne hne' heq
    obtain ⟨h, -⟩ := handlers_of_spelling hcmd hcmd' hlayout hlayout' hpath hpath'
    rw [hwrite, hwrite'] at h
    exact Option.some.inj h
  · exact absurd (by simp [heq]) (question_not_mem_join hplain)
  · exact absurd (by simp [← heq]) (question_not_mem_join hplain')
  · obtain rfl := join_path_inj hplain hplain' hne hne' (List.append_cancel_right heq)
    obtain ⟨-, h⟩ := handlers_of_spelling hcmd hcmd' hlayout hlayout' hpath hpath'
    rw [hquery, hquery'] at h
    exact Option.some.inj h

theorem mem_registered {cmds : List SCPICommand}
    (hwritten : ∀ cmd ∈ cmds, cmd.WrittenAs cmd.pattern) {table table' : List (Text × Handler)}
    (h : cmds.foldlM SCPICommand.register table = .ok table') :
    (key, handler) ∈ table' ↔ (key, handler) ∈ table ∨ ∃ cmd ∈ cmds, cmd.Entry key handler := by
  induction cmds generalizing table with
  | nil =>
    obtain rfl := Except.ok.inj h
    simp
  | cons cmd cmds ih =>
    rw [List.foldlM_cons] at h
    obtain ⟨table₁, hregister, h⟩ := bind_eq_ok.mp h
    rw [List.forall_mem_cons] at hwritten
    rw [ih hwritten.2 h, SCPICommand.mem_register hwritten.1 hregister, or_assoc, List.exists_mem_cons_iff]

/-- Every command of the table has headers. -/
theorem commandTable_ok : ∃ table, commandTable = .ok table := by
  apply exists_foldlM_eq_ok
  intro table cmd hcmd
  have hwritten := writtenAs_pattern cmd hcmd
  unfold SCPICommand.register SCPICommand.headers
  rw [splitSegments_of_written hwritten.1 hwritten.2]
  exact ⟨_, rfl⟩

/-- **The table.** A key is found exactly if it is an entry of a command, with that handler. -/
theorem lookup_commandTable {table : List (Text × Handler)} (h : commandTable = .ok table) :
    table.lookup key = some handler ↔ ∃ cmd ∈ scpiCommands, cmd.Entry key handler := by
  have hmem : ∀ {handler}, (key, handler) ∈ table ↔
      ∃ cmd ∈ scpiCommands, cmd.Entry key handler := by
    intro handler
    rw [mem_registered writtenAs_pattern h]
    simp
  have hfound : ∀ {handler}, table.lookup key = some handler → (key, handler) ∈ table := by
    intro handler hlookup
    obtain ⟨front, back, rfl, -⟩ := List.lookup_eq_some_iff.mp hlookup
    simp
  constructor
  · intro hlookup
    exact hmem.mp (hfound hlookup)
  · rintro ⟨cmd, hcmd, hentry⟩
    obtain ⟨handler', hlookup⟩ : ∃ handler', table.lookup key = some handler' := by
      apply Option.ne_none_iff_exists'.mp
      intro hnone
      have hne := List.lookup_eq_none_iff.mp hnone _ (hmem.mpr ⟨cmd, hcmd, hentry⟩)
      simp at hne
    obtain ⟨cmd', hcmd', hentry'⟩ := hmem.mp (hfound hlookup)
    rw [hlookup, handler_unique hcmd hcmd' hentry hentry']

end Table

end Instro.Psu
