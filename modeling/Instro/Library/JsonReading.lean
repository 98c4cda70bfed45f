import Instro.Library.Checked
import Instro.Library.Json

/-!
# What is dumped loads back

A dump that returns loads as the value, and what a dump that raises leaves behind does not load.
-/

namespace Instro.Library.Json

/-! ## Values -/

/-- The values in a value. -/
def Value.parts : Value → List Value
  | arr items => items
  | obj members => members.map Prod.snd
  | _ => []

/-- The condition holds of the value and of every value in it. -/
inductive Value.Every (P : Value → Prop) : Value → Prop
  | intro {v : Value} : P v → (∀ w ∈ v.parts, w.Every P) → v.Every P

/-- What `json` has a form for. -/
def Value.Writable : Value → Prop
  | int n => tooLong n = false
  | other => False
  | _ => True

/-- A dictionary has one member for each key. -/
def Value.KeysDistinct : Value → Prop
  | obj members => (members.map Prod.fst).Nodup
  | _ => True

/-- Every value in it can be written. -/
abbrev Value.Serialisable (v : Value) : Prop := v.Every Writable

section Every

variable {P : Value → Prop} {v : Value} {items : List Value} {members : List (PyString × Value)}

theorem Value.Every.here (h : v.Every P) : P v := by
  cases h with
  | intro h _ => exact h

theorem Value.Every.within (h : v.Every P) : ∀ w ∈ v.parts, w.Every P := by
  cases h with
  | intro _ h => exact h

theorem every_arr (h : P (.arr items)) : (Value.arr items).Every P ↔ ∀ v ∈ items, v.Every P :=
  ⟨fun hall => hall.within, .intro h⟩

theorem every_obj (h : P (.obj members)) :
    (Value.obj members).Every P ↔ ∀ member ∈ members, member.2.Every P :=
  ⟨fun hall member hmember => hall.within _ (List.mem_map_of_mem hmember), fun hall =>
    .intro h fun v hv => by
      obtain ⟨member, hmember, rfl⟩ := List.mem_map.mp hv
      exact hall member hmember⟩

mutual

/-- Induction on a value through the values in it. -/
theorem Value.ofParts (h : ∀ v : Value, (∀ w ∈ v.parts, P w) → P v) : ∀ v : Value, P v
  | .null => h _ nofun
  | .bool _ => h _ nofun
  | .int _ => h _ nofun
  | .float _ => h _ nofun
  | .str _ => h _ nofun
  | .other => h _ nofun
  | .arr items => h _ (ofItems h items)
  | .obj members => h _ (ofMembers h members)

theorem Value.ofItems (h : ∀ v : Value, (∀ w ∈ v.parts, P w) → P v) :
    ∀ items : List Value, ∀ w ∈ items, P w
  | [] => nofun
  | v :: items => List.forall_mem_cons.mpr ⟨Value.ofParts h v, ofItems h items⟩

theorem Value.ofMembers (h : ∀ v : Value, (∀ w ∈ v.parts, P w) → P v) :
    ∀ members : List (PyString × Value), ∀ w ∈ members.map Prod.snd, P w
  | [] => nofun
  | (_, v) :: members => List.forall_mem_cons.mpr ⟨Value.ofParts h v, ofMembers h members⟩

end

end Every

/-! ## When a dump raises -/

section Raised

variable {level : ℕ} {v : Value}

theorem raised_dumpItem (front : Text) (v : Value) (level : ℕ) :
    (dumpItem front v (dumpValue level v)).raised = (dumpValue level v).raised := by
  cases v with
  | int n =>
    show (if tooLong n then Output.raise else _).raised = (dumpValue level (.int n)).raised
    unfold dumpValue
    split_ifs with hlong
    · rfl
    · rfl
  | _ => rw [dumpItem, Output.raised_andThen, Output.raised_write, Bool.false_or]; nofun

theorem raised_dumpItems (items : List Value) :
    (dumpItems level items).raised = false ↔ ∀ v ∈ items, (dumpValue level v).raised = false := by
  induction items with
  | nil => exact iff_of_true rfl nofun
  | cons v items ih =>
    unfold dumpItems
    rw [Output.raised_andThen, raised_dumpItem, Bool.or_eq_false_iff, ih, List.forall_mem_cons]

theorem raised_dumpMembers (members : List (PyString × Value)) :
    (dumpMembers level members).raised = false ↔
      ∀ member ∈ members, (dumpValue level member.2).raised = false := by
  induction members with
  | nil => exact iff_of_true rfl nofun
  | cons member members ih =>
    obtain ⟨key, v⟩ := member
    unfold dumpMembers
    rw [Output.raised_andThen, Output.raised_write, Bool.false_or, Output.raised_andThen,
      Bool.or_eq_false_iff, ih, List.forall_mem_cons]

/-- A dump returns exactly if every value in the value can be written. -/
theorem raised_dumpValue (v : Value) :
    ∀ level, (dumpValue level v).raised = false ↔ v.Serialisable := by
  induction v using Value.ofParts with
  | h v ih =>
  intro level
  cases v with
  | null => exact iff_of_true rfl (.intro trivial nofun)
  | bool b =>
    refine iff_of_true ?_ (.intro trivial nofun)
    cases b with
    | true => rfl
    | false => rfl
  | int n =>
    have hraised : (dumpValue level (.int n)).raised = tooLong n := by
      unfold dumpValue
      split_ifs with hlong
      · exact hlong.symm
      · exact (Bool.eq_false_of_not_eq_true hlong).symm
    rw [hraised]
    exact ⟨fun h => .intro h nofun, fun h => h.here⟩
  | float x => exact iff_of_true rfl (.intro trivial nofun)
  | str s => exact iff_of_true rfl (.intro trivial nofun)
  | other => exact iff_of_false (nofun) (fun h => h.here)
  | arr items =>
    rw [Value.Serialisable, every_arr trivial]
    cases items with
    | nil => exact iff_of_true rfl nofun
    | cons v items =>
      obtain ⟨hv, hitems⟩ := List.forall_mem_cons.mp ih
      unfold dumpValue
      rw [Output.raised_andThen, raised_dumpItem, Output.raised_andThen, Output.raised_write,
        Bool.or_false, Bool.or_eq_false_iff, raised_dumpItems, List.forall_mem_cons, hv]
      exact and_congr_right fun _ => forall₂_congr fun w hw => hitems w hw _
  | obj members =>
    rw [Value.Serialisable, every_obj trivial]
    cases members with
    | nil => exact iff_of_true rfl nofun
    | cons member members =>
      obtain ⟨key, v⟩ := member
      obtain ⟨hv, hmembers⟩ := List.forall_mem_cons.mp ih
      unfold dumpValue
      rw [Output.raised_andThen, Output.raised_write, Bool.false_or, Output.raised_andThen,
        Output.raised_andThen, Output.raised_write, Bool.or_false, Bool.or_eq_false_iff,
        raised_dumpMembers, List.forall_mem_cons, hv]
      exact and_congr_right fun _ => forall₂_congr fun member hmember =>
        hmembers _ (List.mem_map_of_mem hmember) _

end Raised

/-! ## How texts begin -/

/-- The text does not begin with whitespace. -/
def Bare (text : Text) : Prop := ∀ c, text.head? = some c → isSpace c = false

theorem bare_cons {c : Char} (h : isSpace c = false) (text : Text) : Bare (c :: text) := by
  intro d hd
  obtain rfl := Option.some.inj hd
  exact h

theorem skipSpace_of_bare {text : Text} (h : Bare text) : skipSpace text = text := by
  cases text with
  | nil => rfl
  | cons c text =>
    apply List.dropWhile_cons_of_neg
    rw [h c rfl]
    exact Bool.false_ne_true

theorem skipSpace_space {text : Text} (h : Bare text) : skipSpace (' ' :: text) = text := by
  unfold skipSpace
  rw [List.dropWhile_cons_of_pos (by decide)]
  exact skipSpace_of_bare h

theorem skipSpace_newline (level : ℕ) {text : Text} (h : Bare text) :
    skipSpace (newline level ++ text) = text := by
  unfold skipSpace newline
  rw [List.cons_append, List.dropWhile_cons_of_pos (by decide)]
  have hspaces : ∀ n, (List.replicate n ' ' ++ text).dropWhile isSpace = text := by
    intro n
    induction n with
    | zero => exact skipSpace_of_bare h
    | succ n ih =>
      rw [List.replicate_succ, List.cons_append, List.dropWhile_cons_of_pos (by decide), ih]
  exact hspaces _

theorem isSpace_of_isDigit {c : Char} (h : PyText.isDigit c = true) :
    isSpace c = false ∧ c ≠ '\ufeff' ∧ c ≠ ']' ∧ c ≠ '\x7d' ∧ c ≠ '"' ∧ c ≠ '[' ∧ c ≠ '\x7b' := by
  have hne : ∀ d : Char, PyText.isDigit d = false → c ≠ d := by
    rintro d hd rfl
    exact Bool.false_ne_true (hd.symm.trans h)
  refine ⟨?_, hne _ (by decide), hne _ (by decide), hne _ (by decide), hne _ (by decide),
    hne _ (by decide), hne _ (by decide)⟩
  unfold isSpace
  rw [decide_eq_false_iff_not]
  simp only [List.mem_cons, List.not_mem_nil, or_false, not_or]
  exact ⟨hne _ (by decide), hne _ (by decide), hne _ (by decide), hne _ (by decide)⟩

/-! ## Numbers and names -/

section Numbers

variable {n : Numeral} {rest : Text}

/-- A numeral is none of the names. -/
theorem find_constants (hwell : n.WellFormed) (rest : Text) :
    constants.find? (fun constant => constant.1.isPrefixOf (n.text ++ rest)) = none := by
  obtain ⟨c, more, hwhole, hc⟩ := hwell.head
  have hnames : ∀ d, PyText.isDigit d = false → ∀ name text,
      ¬(d :: name).isPrefixOf (c :: text) = true := by
    intro d hd name text h
    rw [List.isPrefixOf_cons_cons, Bool.and_eq_true, beq_iff_eq] at h
    exact Bool.false_ne_true (hd.symm.trans (h.1 ▸ hc))
  have htext : n.text ++ rest = signText n.negative ++ (c :: more ++
      (Numeral.fractionText n.fraction ++ Numeral.exponentText n.exponent) ++ rest) := by
    unfold Numeral.text
    rw [hwhole, List.append_assoc]
  rw [htext, List.find?_eq_none]
  intro constant hconstant
  simp only [constants, List.mem_cons, List.not_mem_nil, or_false] at hconstant
  cases n.negative with
  | false =>
    rcases hconstant with rfl | rfl | rfl | rfl | rfl | rfl
    · exact hnames 'n' rfl _ _
    · exact hnames 't' rfl _ _
    · exact hnames 'f' rfl _ _
    · exact hnames 'N' rfl _ _
    · exact hnames 'I' rfl _ _
    · exact hnames '-' rfl _ _
  | true =>
    rcases hconstant with rfl | rfl | rfl | rfl | rfl | rfl
    · exact Bool.false_ne_true
    · exact Bool.false_ne_true
    · exact Bool.false_ne_true
    · exact Bool.false_ne_true
    · exact Bool.false_ne_true
    · exact hnames 'I' rfl _ _

/-- A numeral begins with a digit or with its sign. -/
theorem head_numeral (hwell : n.WellFormed) : ∃ c more, n.text = c :: more ∧
    (c = '-' ∨ PyText.isDigit c = true) := by
  obtain ⟨c, more, hwhole, hc⟩ := hwell.head
  unfold Numeral.text
  cases n.negative with
  | true => exact ⟨'-', _, rfl, .inl rfl⟩
  | false =>
    rw [hwhole]
    exact ⟨c, _, rfl, .inr hc⟩

theorem ne_of_head_numeral {c : Char} (h : c = '-' ∨ PyText.isDigit c = true) :
    isSpace c = false ∧ c ≠ '\ufeff' ∧ c ≠ ']' ∧ c ≠ '\x7d' ∧ c ≠ '"' ∧ c ≠ '[' ∧ c ≠ '\x7b' := by
  rcases h with rfl | h
  · decide
  · exact isSpace_of_isDigit h

/-- What is no string, list or dictionary is a name or a number. -/
theorem scanValue_plain {c : Char} {text : Text} {depth : ℕ} (hdepth : (c :: text).length ≤ depth)
    (hquote : c ≠ '"') (hbracket : c ≠ '[') (hbrace : c ≠ '\x7b') :
    scanValue depth (c :: text) = scanPlain (c :: text) := by
  cases depth with
  | zero => exact absurd hdepth (Nat.not_succ_le_zero _)
  | succ depth =>
    unfold scanValue
    rw [if_neg hquote, if_neg hbracket, if_neg hbrace]

theorem scanValue_nil (depth : ℕ) : scanValue depth [] = .error .decodeError := by rw [scanValue]

/-- What is written for a number is read as the number. -/
theorem scanValue_numeral (hwell : n.WellFormed) (hrest : Numeral.Stops rest) {depth : ℕ}
    (hdepth : (n.text ++ rest).length ≤ depth) :
    scanValue depth (n.text ++ rest) =
      if n.isInt then
        if 4300 < n.whole.length then .error .valueError else .ok (.int n.toInt, rest)
      else .ok (.float ⟨n.toFloat double, n.isFloat_toFloat⟩, rest) := by
  have hplain : scanPlain (n.text ++ rest) = scanNumber (n.text ++ rest) := by
    unfold scanPlain
    rw [find_constants hwell]
  have hnumber : scanNumber (n.text ++ rest) =
      if n.isInt then
        if 4300 < n.whole.length then .error .valueError else .ok (.int n.toInt, rest)
      else .ok (.float ⟨n.toFloat double, n.isFloat_toFloat⟩, rest) := by
    unfold scanNumber
    rw [Numeral.scan_text hwell hrest]
  rw [← hnumber, ← hplain]
  obtain ⟨c, more, htext, hc⟩ := head_numeral hwell
  obtain ⟨-, -, -, -, hquote, hbracket, hbrace⟩ := ne_of_head_numeral hc
  rw [htext, List.cons_append] at hdepth ⊢
  exact scanValue_plain hdepth hquote hbracket hbrace

/-- The numeral of an integer. -/
def intNumeral (m : ℤ) : Numeral := ⟨m < 0, PyText.ofNat m.natAbs, none, none⟩

theorem text_intNumeral (m : ℤ) : (intNumeral m).text = intText m := by
  cases m with
  | ofNat k =>
    show signText (decide (Int.ofNat k < 0)) ++ (PyText.ofNat k ++ ([] ++ [])) = PyText.ofNat k
    have hsign : decide (Int.ofNat k < 0) = false := decide_eq_false (not_lt.mpr (Int.natCast_nonneg k))
    rw [hsign, List.append_nil, List.append_nil]
    rfl
  | negSucc k =>
    show signText (decide (Int.negSucc k < 0)) ++ (PyText.ofNat (k + 1) ++ ([] ++ [])) =
      '-' :: PyText.ofNat (k + 1)
    rw [decide_eq_true (Int.negSucc_lt_zero k), List.append_nil, List.append_nil]
    rfl

theorem wellFormed_intNumeral (m : ℤ) : (intNumeral m).WellFormed where
  whole := by
    by_cases hzero : m.natAbs = 0
    · left
      show PyText.ofNat m.natAbs = ['0']
      rw [hzero]
      rfl
    · obtain ⟨c, more, hdigits, hc⟩ := head_ofNat (Nat.pos_of_ne_zero hzero)
      refine .inr ⟨c, more, hdigits, hc, List.cons_ne_nil _ _, fun d hd => ?_⟩
      exact isDigit_ofNat (hdigits ▸ hd)
  fraction := nofun
  exponent := nofun

theorem toInt_intNumeral (m : ℤ) : (intNumeral m).toInt = m := by
  unfold Numeral.toInt intNumeral
  dsimp only
  rw [number_ofNat]
  simp only [decide_eq_true_eq]
  split_ifs <;> omega

theorem scanValue_int {m : ℤ} (hm : tooLong m = false) (hrest : Numeral.Stops rest) {depth : ℕ}
    (hdepth : (intText m ++ rest).length ≤ depth) :
    scanValue depth (intText m ++ rest) = .ok (.int m, rest) := by
  have hint : (intNumeral m).isInt = true := rfl
  have hlength : ¬4300 < (intNumeral m).whole.length := of_decide_eq_false hm
  rw [← text_intNumeral] at hdepth ⊢
  rw [scanValue_numeral (wellFormed_intNumeral m) hrest hdepth, if_pos hint, if_neg hlength,
    toInt_intNumeral]

theorem scanValue_float (x : Double) (hrest : Numeral.Stops rest) {depth : ℕ}
    (hdepth : (floatText x.value ++ rest).length ≤ depth) :
    scanValue depth (floatText x.value ++ rest) = .ok (.float x, rest) := by
  have hfinite : ∀ q, x.value.value? = some q → floatText x.value = x.value.repr double →
      scanValue depth (floatText x.value ++ rest) = .ok (.float x, rest) := by
    intro q hq hrepr
    obtain ⟨hwell, hint, hreads⟩ := numeral_reads hq x.isFloat
    have htext : floatText x.value = (numeral double x.value q).text := by
      rw [hrepr]
      unfold PyFloat.repr
      rw [hq]
    rw [htext] at hdepth ⊢
    rw [scanValue_numeral hwell hrest hdepth, hint, if_neg Bool.false_ne_true]
    obtain ⟨value, hvalue⟩ := x
    dsimp only at hreads
    simp only [hreads]
  obtain ⟨value, hvalue⟩ := x
  cases value with
  | finite q => exact hfinite q rfl rfl
  | negZero => exact hfinite 0 rfl rfl
  | nan => exact scanValue_plain hdepth (by decide) (by decide) (by decide)
  | inf negative =>
    cases negative with
    | true => exact scanValue_plain hdepth (by decide) (by decide) (by decide)
    | false => exact scanValue_plain hdepth (by decide) (by decide) (by decide)

end Numbers

/-! ## Dumps -/

section Dumps

variable {v : Value} {level depth limit : ℕ} {text rest : Text}

/-- The integers for which not even the text before them in a list is written. -/
def Value.refused : Value → Bool
  | int n => tooLong n
  | _ => false

theorem before_dumpItem (front : Text) (v : Value) (level : ℕ) (rest : Text) :
    (dumpItem front v (dumpValue level v)).before rest =
      if v.refused then [] else front ++ (dumpValue level v).before rest := by
  cases v with
  | int n =>
    show Output.before (if tooLong n then Output.raise else _) rest = if tooLong n then [] else _
    split_ifs with hlong
    · rfl
    · rw [Output.before_andThen, Output.before_write]
  | _ =>
    show Output.before ((Output.write front).andThen _) rest = _
    rw [Output.before_andThen, Output.before_write]
    rfl

theorem raised_of_refused (h : v.refused = true) (level : ℕ) : (dumpValue level v).raised = true := by
  cases v with
  | int n =>
    have hlong : tooLong n = true := h
    rw [dumpValue, if_pos hlong]
    rfl
  | _ => cases h

/-- A dump begins with no whitespace, no byte order mark and nothing that closes a list or a
dictionary. -/
structure Begins (v : Value) (level : ℕ) (text : Text) : Prop where
  bare : Bare text
  mark : text.head? ≠ some '\ufeff'
  item : text.head? ≠ some ']'
  member : text.head? ≠ some '\x7d'
  raised : text = [] → (dumpValue level v).raised = true

theorem begins_of_cons {c : Char} {more : Text} (hspace : isSpace c = false) (hmark : c ≠ '\ufeff')
    (hitem : c ≠ ']') (hmember : c ≠ '\x7d') : Begins v level (c :: more) where
  bare d hd := by
    obtain rfl := Option.some.inj hd
    exact hspace
  mark hd := hmark (Option.some.inj hd)
  item hd := hitem (Option.some.inj hd)
  member hd := hmember (Option.some.inj hd)
  raised := nofun

theorem begins_nil (h : (dumpValue level v).raised = true) : Begins v level [] where
  bare := nofun
  mark := nofun
  item := nofun
  member := nofun
  raised _ := h

theorem begins_numeral {n : Numeral} (hwell : n.WellFormed) (rest : Text) :
    Begins v level (n.text ++ rest) := by
  obtain ⟨c, more, htext, hc⟩ := head_numeral hwell
  obtain ⟨hspace, hmark, hitem, hmember, -⟩ := ne_of_head_numeral hc
  rw [htext]
  exact begins_of_cons hspace hmark hitem hmember

theorem begins_float (x : Double) (rest : Text) : Begins v level (floatText x.value ++ rest) := by
  have hfinite : ∀ q, x.value.value? = some q → floatText x.value = x.value.repr double →
      Begins v level (floatText x.value ++ rest) := by
    intro q hq hrepr
    obtain ⟨hwell, -, -⟩ := numeral_reads hq x.isFloat
    rw [hrepr]
    unfold PyFloat.repr
    rw [hq]
    exact begins_numeral hwell rest
  obtain ⟨value, hvalue⟩ := x
  cases value with
  | finite q => exact hfinite q rfl rfl
  | negZero => exact hfinite 0 rfl rfl
  | nan => exact begins_of_cons (by decide) (by decide) (by decide) (by decide)
  | inf negative =>
    cases negative with
    | true => exact begins_of_cons (by decide) (by decide) (by decide) (by decide)
    | false => exact begins_of_cons (by decide) (by decide) (by decide) (by decide)

theorem begins_dumpValue (v : Value) (level : ℕ) (rest : Text) :
    Begins v level ((dumpValue level v).before rest) := by
  cases v with
  | null => exact begins_of_cons (by decide) (by decide) (by decide) (by decide)
  | bool b =>
    cases b with
    | true => exact begins_of_cons (by decide) (by decide) (by decide) (by decide)
    | false => exact begins_of_cons (by decide) (by decide) (by decide) (by decide)
  | int n =>
    by_cases hlong : tooLong n = true
    · have hraise : dumpValue level (.int n) = .raise := by
        unfold dumpValue
        exact if_pos hlong
      rw [hraise]
      exact begins_nil (by rw [hraise]; rfl)
    · have hwrite : dumpValue level (.int n) = .write (intText n) := by
        unfold dumpValue
        exact if_neg hlong
      rw [hwrite, Output.before_write, ← text_intNumeral]
      exact begins_numeral (wellFormed_intNumeral n) rest
  | float x => exact begins_float x rest
  | str s => exact begins_of_cons (by decide) (by decide) (by decide) (by decide)
  | other => exact begins_nil rfl
  | arr items =>
    cases items with
    | nil => exact begins_of_cons (by decide) (by decide) (by decide) (by decide)
    | cons v items =>
      have hraised : v.refused = true → (dumpValue level (.arr (v :: items))).raised = true := by
        intro h
        unfold dumpValue
        rw [Output.raised_andThen, raised_dumpItem, raised_of_refused h, Bool.true_or]
      rw [dumpValue, Output.before_andThen, before_dumpItem]
      split_ifs with hrefused
      · exact begins_nil (hraised hrefused)
      · exact begins_of_cons (by decide) (by decide) (by decide) (by decide)
  | obj members =>
    cases members with
    | nil => exact begins_of_cons (by decide) (by decide) (by decide) (by decide)
    | cons member members =>
      obtain ⟨key, v⟩ := member
      rw [dumpValue, Output.before_andThen, Output.before_write]
      exact begins_of_cons (by decide) (by decide) (by decide) (by decide)

/-- What is read from the dump of the value: the value, unless the dump has raised. -/
def Reads (v : Value) : Prop :=
  ∀ level depth rest, Numeral.Stops rest → ((dumpValue level v).before rest).length ≤ depth →
    scanValue depth ((dumpValue level v).before rest) =
      if (dumpValue level v).raised then .error .decodeError else .ok (v, rest)

theorem before_of_not_raised {a : Output} (h : a.raised = false) (rest : Text) :
    a.before rest = a.text ++ rest := by
  unfold Output.before
  rw [h]
  exact if_neg Bool.false_ne_true

theorem stops_nil : Numeral.Stops [] := nofun

theorem stops_comma (text : Text) : Numeral.Stops (',' :: text) := by
  intro c hc
  obtain rfl := Option.some.inj hc
  exact ⟨rfl, by decide, by decide, by decide⟩

theorem stops_newline (text : Text) : Numeral.Stops (newline level ++ text) := by
  intro c hc
  obtain rfl := Option.some.inj hc
  exact ⟨rfl, by decide, by decide, by decide⟩

/-- What follows an item: the next one, or nothing where that cannot be written, or the end. -/
theorem before_dumpItems (level : ℕ) (w : Value) (items : List Value) (close : Text) :
    (dumpItems level (w :: items)).before close =
      if w.refused then [] else ',' :: (newline level ++
        (dumpValue level w).before ((dumpItems level items).before close)) := by
  rw [dumpItems, Output.before_andThen, before_dumpItem]
  rfl

theorem raised_cons (w : Value) (items : List Value) : (dumpItems level (w :: items)).raised =
    ((dumpValue level w).raised || (dumpItems level items).raised) := by
  rw [dumpItems, Output.raised_andThen, raised_dumpItem]

theorem stops_dumpItems {close : Text} (hclose : Numeral.Stops close) (level : ℕ) (items : List Value) :
    Numeral.Stops ((dumpItems level items).before close) := by
  cases items with
  | nil => exact hclose
  | cons w items =>
    rw [before_dumpItems]
    split_ifs
    · exact stops_nil
    · exact stops_comma _

theorem exists_limit (hraised : ¬(dumpValue level v).raised = true)
    (hlimit : ((dumpValue level v).before rest).length ≤ limit) : ∃ n, limit = n + 1 := by
  apply Nat.exists_eq_succ_of_ne_zero
  rintro rfl
  have hnil := List.eq_nil_of_length_eq_zero (Nat.le_zero.mp hlimit)
  exact hraised ((begins_dumpValue v level rest).raised hnil)

section Scan

variable {scan : Text → Except LoadError (Value × Text)} {e : LoadError}

theorem scanItems_of_error (h : scan text = .error .decodeError) (limit : ℕ) :
    scanItems scan limit text = .error .decodeError := by
  cases limit with
  | zero => rfl
  | succ limit =>
    unfold scanItems
    rw [h]
    rfl

theorem scanItems_close {after : Text} (h : scan text = .ok (v, after))
    (hafter : skipSpace after = ']' :: rest) (limit : ℕ) :
    scanItems scan (limit + 1) text = .ok ([v], rest) := by
  refine bind_eq_ok.mpr ⟨(v, after), h, ?_⟩
  dsimp only
  rw [hafter]
  rfl

theorem scanItems_end (h : scan text = .ok (v, [])) (limit : ℕ) :
    scanItems scan limit text = .error .decodeError := by
  cases limit with
  | zero => rfl
  | succ limit =>
    unfold scanItems
    rw [h]
    rfl

theorem scanItems_comma (h : scan text = .ok (v, ',' :: rest)) (limit : ℕ) :
    scanItems scan (limit + 1) text =
      (scanItems scan limit (skipSpace rest)).bind fun (items, rest) => .ok (v :: items, rest) := by
  rw [scanItems, h]
  rfl

/-- A key as it is written, and a value after it. -/
theorem scanMembers_key (key : PyString) (hbare : Bare text) (members : List (PyString × Value)) :
    scanMembers scan (limit + 1) members (key.jsonText ++ ([':', ' '] ++ text)) =
      (scan text).bind fun (v, rest) =>
        match skipSpace rest with
        | '\x7d' :: rest => .ok (setEntry key v members, rest)
        | ',' :: rest => scanMembers scan limit (setEntry key v members) (skipSpace rest)
        | _ => .error .decodeError := by
  have hkey := scanString_jsonText key ([':', ' '] ++ text)
  have hhead : (key.jsonText ++ ([':', ' '] ++ text)).head? = some '"' := rfl
  rw [scanMembers, if_pos hhead, hkey]
  have hcolon : skipSpace ([':', ' '] ++ text) = ':' :: ' ' :: text := rfl
  simp only [hcolon, skipSpace_space hbare]
  rfl

end Scan

/-- One item, and what follows it. -/
theorem scanItems_item (hreads : Reads v) (hstops : Numeral.Stops rest)
    (hdepth : ((dumpValue level v).before rest).length ≤ depth)
    (hlimit : ((dumpValue level v).before rest).length ≤ limit) :
    if (dumpValue level v).raised then
      scanItems (scanValue depth) limit ((dumpValue level v).before rest) = .error .decodeError
    else scanValue depth ((dumpValue level v).before rest) = .ok (v, rest) ∧
      ∃ k, limit = k + 1 := by
  have hscan := hreads level depth rest hstops hdepth
  split_ifs at hscan ⊢ with hraised
  · exact scanItems_of_error hscan limit
  · exact ⟨hscan, exists_limit hraised hlimit⟩

/-- The items of a list, from any item on. -/
theorem scanItems_dump {close : Text} (hclose : skipSpace close = ']' :: rest)
    (hstops : Numeral.Stops close) (items : List Value) (v : Value)
    (hreads : ∀ w ∈ v :: items, Reads w)
    (hdepth : ((dumpValue level v).before ((dumpItems level items).before close)).length ≤ depth)
    (hlimit : ((dumpValue level v).before ((dumpItems level items).before close)).length ≤ limit) :
    scanItems (scanValue depth) limit
        ((dumpValue level v).before ((dumpItems level items).before close)) =
      if (dumpValue level v).raised || (dumpItems level items).raised then .error .decodeError
      else .ok (v :: items, rest) := by
  induction items generalizing v limit with
  | nil =>
    have hitem := scanItems_item (hreads v List.mem_cons_self) hstops hdepth hlimit
    split_ifs at hitem with hraised
    · rw [hraised, Bool.true_or, if_pos rfl]
      exact hitem
    · obtain ⟨hscan, limit, rfl⟩ := hitem
      rw [Bool.not_eq_true] at hraised
      rw [hraised, Bool.false_or]
      exact scanItems_close hscan hclose limit
  | cons w items ih =>
    have hitem := scanItems_item (hreads v List.mem_cons_self)
      (stops_dumpItems hstops level (w :: items)) hdepth hlimit
    split_ifs at hitem with hraised
    · rw [hraised, Bool.true_or, if_pos rfl]
      exact hitem
    · obtain ⟨hscan, limit, rfl⟩ := hitem
      rw [Bool.not_eq_true] at hraised
      rw [hraised, Bool.false_or, raised_cons]
      by_cases hrefused : w.refused = true
      · -- the dump ends before the next item
        have hitems : (dumpItems level (w :: items)).before close = [] := by
          rw [before_dumpItems, if_pos hrefused]
        rw [hitems] at hscan ⊢
        rw [raised_of_refused hrefused, Bool.true_or, if_pos rfl]
        exact scanItems_end hscan _
      · have hitems := before_dumpItems level w items close
        rw [if_neg hrefused] at hitems
        rw [before_of_not_raised hraised] at hdepth hlimit
        rw [hitems] at hscan hdepth hlimit ⊢
        have hshort : ((dumpValue level w).before ((dumpItems level items).before close)).length <
            ((dumpValue level v).text ++ ',' :: (newline level ++
              (dumpValue level w).before ((dumpItems level items).before close))).length := by
          simp only [List.length_append, List.length_cons]
          omega
        rw [scanItems_comma hscan, skipSpace_newline level (begins_dumpValue w level _).bare,
          ih w (fun u hu => hreads u (List.mem_cons_of_mem _ hu)) (by omega) (by omega)]
        split_ifs
        · rfl
        · rfl

theorem before_dumpMembers (level : ℕ) (key : PyString) (v : Value)
    (members : List (PyString × Value)) (close : Text) : (dumpMembers level ((key, v) :: members)).before close =
      ',' :: (newline level ++ (key.jsonText ++ ([':', ' '] ++
        (dumpValue level v).before ((dumpMembers level members).before close)))) := by
  rw [dumpMembers, Output.before_andThen, Output.before_write, Output.before_andThen, List.cons_append,
    List.append_assoc, List.append_assoc]

theorem stops_dumpMembers {close : Text} (hclose : Numeral.Stops close)
    (members : List (PyString × Value)) :
    Numeral.Stops ((dumpMembers level members).before close) := by
  cases members with
  | nil => exact hclose
  | cons member members =>
    obtain ⟨key, v⟩ := member
    rw [before_dumpMembers]
    exact stops_comma _

theorem bare_jsonText (s : PyString) (text : Text) : Bare (s.jsonText ++ text) := bare_cons rfl _

/-- The first of the members that are left: its key has not come yet. -/
theorem first_member {key : PyString} {members read : List (PyString × Value)}
    (hkeys : ((read ++ (key, v) :: members).map Prod.fst).Nodup)
    (hreads : ∀ member ∈ (key, v) :: members, Reads member.2) :
    key ∉ read.map Prod.fst ∧ Reads v := by
  rw [List.map_append, List.nodup_append] at hkeys
  exact ⟨fun hmem => hkeys.2.2 key hmem key List.mem_cons_self rfl,
    hreads (key, v) List.mem_cons_self⟩

/-- One member, and what follows it. -/
theorem scanMembers_member {key : PyString} {read : List (PyString × Value)} (hreads : Reads v)
    (hfresh : key ∉ read.map Prod.fst) (hstops : Numeral.Stops rest)
    (hdepth : ((dumpValue level v).before rest).length ≤ depth) :
    scanMembers (scanValue depth) (limit + 1) read
        (key.jsonText ++ ([':', ' '] ++ (dumpValue level v).before rest)) =
      if (dumpValue level v).raised then .error .decodeError
      else
        match skipSpace rest with
        | '\x7d' :: rest => .ok (read ++ [(key, v)], rest)
        | ',' :: rest => scanMembers (scanValue depth) limit (read ++ [(key, v)]) (skipSpace rest)
        | _ => .error .decodeError := by
  rw [scanMembers_key key (begins_dumpValue v level rest).bare read, hreads level depth rest hstops hdepth,
    ← setEntry_of_not_mem hfresh]
  split_ifs
  · rfl
  · rfl

/-- The members of a dictionary, from any member on. -/
theorem scanMembers_dump {close : Text} (hclose : skipSpace close = '\x7d' :: rest)
    (hstops : Numeral.Stops close) (members : List (PyString × Value)) (key : PyString) (v : Value)
    (read : List (PyString × Value)) (hreads : ∀ member ∈ (key, v) :: members, Reads member.2)
    (hkeys : ((read ++ (key, v) :: members).map Prod.fst).Nodup)
    (hdepth : ((dumpValue level v).before ((dumpMembers level members).before close)).length ≤ depth)
    (hlimit : ((dumpValue level v).before ((dumpMembers level members).before close)).length < limit) :
    scanMembers (scanValue depth) limit read (key.jsonText ++ ([':', ' '] ++
        (dumpValue level v).before ((dumpMembers level members).before close))) =
      if (dumpValue level v).raised || (dumpMembers level members).raised then .error .decodeError
      else .ok (read ++ (key, v) :: members, rest) := by
  induction members generalizing key v read limit with
  | nil =>
    obtain ⟨hfresh, hv⟩ := first_member hkeys hreads
    obtain ⟨limit, rfl⟩ := Nat.exists_eq_succ_of_ne_zero (Nat.ne_zero_of_lt hlimit)
    have hend : (dumpMembers level []).before close = close := rfl
    have hraised : (dumpMembers level []).raised = false := rfl
    rw [hend] at hdepth ⊢
    rw [scanMembers_member hv hfresh hstops hdepth, hclose, hraised, Bool.or_false]
    rfl
  | cons member members ih =>
    obtain ⟨hfresh, hv⟩ := first_member hkeys hreads
    obtain ⟨limit, rfl⟩ := Nat.exists_eq_succ_of_ne_zero (Nat.ne_zero_of_lt hlimit)
    obtain ⟨next, w⟩ := member
    rw [scanMembers_member hv hfresh (stops_dumpMembers hstops _) hdepth]
    by_cases hraised : (dumpValue level v).raised = true
    · rw [hraised, Bool.true_or]
      rfl
    rw [Bool.not_eq_true] at hraised
    have hmembers := before_dumpMembers level next w members close
    rw [before_of_not_raised hraised, hmembers] at hdepth hlimit
    simp only [List.length_append, List.length_cons] at hdepth hlimit
    rw [hraised, Bool.false_or, if_neg Bool.false_ne_true, hmembers]
    show scanMembers (scanValue depth) limit _ (skipSpace (newline level ++ _)) = _
    have hread : read ++ (key, v) :: (next, w) :: members = (read ++ [(key, v)]) ++ (next, w) :: members := by
      rw [List.append_assoc]
      rfl
    rw [skipSpace_newline level (bare_jsonText next _), ih next w (read ++ [(key, v)])
      (fun member hmember => hreads member (List.mem_cons_of_mem _ hmember)) (hread ▸ hkeys)
      (by omega) (by omega), dumpMembers, hread]
    simp only [Output.raised_andThen, Output.raised_write, Bool.false_or]

/-- A list that begins with an item. -/
theorem scanValue_arr (hitem : (skipSpace text).head? ≠ some ']') :
    scanValue (depth + 1) ('[' :: text) =
      (scanItems (scanValue depth) text.length (skipSpace text)).bind fun (items, rest) =>
        .ok (.arr items, rest) := by
  rw [scanValue, if_neg (by decide), if_pos rfl, if_neg hitem]
  rfl

/-- A dictionary that begins with a member. -/
theorem scanValue_obj (hmember : (skipSpace text).head? ≠ some '\x7d') :
    scanValue (depth + 1) ('\x7b' :: text) =
      (scanMembers (scanValue depth) text.length [] (skipSpace text)).bind fun (members, rest) =>
        .ok (.obj members, rest) := by
  rw [scanValue, if_neg (by decide), if_neg (by decide), if_pos rfl, if_neg hmember]
  rfl

theorem raised_arr (v : Value) (items : List Value) : (dumpValue level (.arr (v :: items))).raised =
    ((dumpValue (level + 1) v).raised || (dumpItems (level + 1) items).raised) := by
  rw [dumpValue, Output.raised_andThen, raised_dumpItem, Output.raised_andThen, Output.raised_write,
    Bool.or_false]

theorem before_arr (level : ℕ) (v : Value) (items : List Value) (rest : Text) :
    (dumpValue level (.arr (v :: items))).before rest =
      if v.refused then []
      else '[' :: (newline (level + 1) ++ (dumpValue (level + 1) v).before
        ((dumpItems (level + 1) items).before (newline level ++ ']' :: rest))) := by
  rw [dumpValue, Output.before_andThen, before_dumpItem, Output.before_andThen, Output.before_write,
    List.append_assoc]
  rfl

theorem raised_obj (key : PyString) (v : Value) (members : List (PyString × Value)) :
    (dumpValue level (.obj ((key, v) :: members))).raised =
      ((dumpValue (level + 1) v).raised || (dumpMembers (level + 1) members).raised) := by
  rw [dumpValue, Output.raised_andThen, Output.raised_write, Bool.false_or, Output.raised_andThen,
    Output.raised_andThen, Output.raised_write, Bool.or_false]

theorem before_obj (key : PyString) (v : Value) (members : List (PyString × Value)) (rest : Text) :
    (dumpValue level (.obj ((key, v) :: members))).before rest =
      '\x7b' :: (newline (level + 1) ++ (key.jsonText ++ ([':', ' '] ++
        (dumpValue (level + 1) v).before
          ((dumpMembers (level + 1) members).before (newline level ++ '\x7d' :: rest))))) := by
  rw [dumpValue, Output.before_andThen, Output.before_write, Output.before_andThen,
    Output.before_andThen, Output.before_write, List.cons_append, List.append_assoc, List.append_assoc,
    List.append_assoc]
  rfl

theorem reads_arr (v : Value) (items : List Value) (hreads : ∀ w ∈ v :: items, Reads w) :
    Reads (.arr (v :: items)) := by
  intro level depth rest hrest hdepth
  rw [before_arr] at hdepth ⊢
  rw [raised_arr]
  by_cases hrefused : v.refused = true
  · rw [if_pos hrefused, raised_of_refused hrefused, scanValue]
    rfl
  · rw [if_neg hrefused] at hdepth ⊢
    obtain ⟨depth, rfl⟩ := Nat.exists_eq_succ_of_ne_zero (Nat.ne_zero_of_lt hdepth)
    have hbegins := begins_dumpValue v (level + 1)
      ((dumpItems (level + 1) items).before (newline level ++ ']' :: rest))
    have hskip := skipSpace_newline (level + 1) hbegins.bare
    have hclose : skipSpace (newline level ++ ']' :: rest) = ']' :: rest :=
      skipSpace_newline level (bare_cons rfl rest)
    rw [List.length_cons, List.length_append] at hdepth
    rw [scanValue_arr (by rw [hskip]; exact hbegins.item), hskip,
      scanItems_dump hclose (stops_newline _) items v hreads (by omega)
        (by rw [List.length_append]; omega)]
    split_ifs
    · rfl
    · rfl

theorem reads_obj (key : PyString) (v : Value) (members : List (PyString × Value))
    (hkeys : (((key, v) :: members).map Prod.fst).Nodup)
    (hreads : ∀ member ∈ (key, v) :: members, Reads member.2) :
    Reads (.obj ((key, v) :: members)) := by
  intro level depth rest hrest hdepth
  rw [before_obj] at hdepth ⊢
  rw [raised_obj]
  obtain ⟨depth, rfl⟩ := Nat.exists_eq_succ_of_ne_zero (Nat.ne_zero_of_lt hdepth)
  have hskip := skipSpace_newline (level + 1) (bare_jsonText key ([':', ' '] ++
    (dumpValue (level + 1) v).before
      ((dumpMembers (level + 1) members).before (newline level ++ '\x7d' :: rest))))
  have hclose : skipSpace (newline level ++ '\x7d' :: rest) = '\x7d' :: rest :=
    skipSpace_newline level (bare_cons rfl rest)
  have hquote : key.jsonText.length = key.jsonText.tail.length + 1 := rfl
  simp only [List.length_cons, List.length_append] at hdepth
  rw [scanValue_obj (by rw [hskip]; exact fun h => absurd (Option.some.inj h) (by decide)), hskip,
    scanMembers_dump hclose (stops_newline _) members key v [] hreads hkeys (by omega)
      (by simp only [List.length_append]; omega)]
  split_ifs
  · rfl
  · rfl

theorem scanValue_string (depth : ℕ) {text : Text} {s : PyString}
    (h : scanString text = some (s, rest)) :
    scanValue (depth + 1) ('"' :: text) = .ok (.str s, rest) := by
  rw [scanValue, if_pos rfl, h]

/-- **A dump reads back.** The text of a dump that returns is read as the value, and the text of a dump
that raises is not read. -/
theorem reads_dump {v : Value} (hkeys : v.Every Value.KeysDistinct) : Reads v := by
  induction v using Value.ofParts with
  | h v ih =>
  have hreads : ∀ w ∈ v.parts, Reads w := fun w hw => ih w hw (hkeys.within w hw)
  cases v with
  | null =>
    intro level depth rest hrest hdepth
    exact scanValue_plain hdepth (by decide) (by decide) (by decide)
  | bool b =>
    intro level depth rest hrest hdepth
    cases b with
    | true => exact scanValue_plain hdepth (by decide) (by decide) (by decide)
    | false => exact scanValue_plain hdepth (by decide) (by decide) (by decide)
  | int n =>
    intro level depth rest hrest hdepth
    rw [dumpValue] at hdepth ⊢
    by_cases hlong : tooLong n = true
    · rw [if_pos hlong, Output.before_raise, scanValue]
      rfl
    · rw [if_neg hlong] at hdepth ⊢
      exact scanValue_int (Bool.eq_false_of_not_eq_true hlong) hrest hdepth
  | float x =>
    intro level depth rest hrest hdepth
    exact scanValue_float x hrest hdepth
  | str s =>
    intro level depth rest hrest hdepth
    obtain ⟨depth, rfl⟩ := Nat.exists_eq_succ_of_ne_zero (Nat.ne_zero_of_lt hdepth)
    exact scanValue_string depth (scanString_jsonText s rest)
  | other =>
    intro level depth rest hrest hdepth
    exact scanValue_nil depth
  | arr items =>
    cases items with
    | nil =>
      intro level depth rest hrest hdepth
      obtain ⟨depth, rfl⟩ := Nat.exists_eq_succ_of_ne_zero (Nat.ne_zero_of_lt hdepth)
      rfl
    | cons v items => exact reads_arr v items hreads
  | obj members =>
    cases members with
    | nil =>
      intro level depth rest hrest hdepth
      obtain ⟨depth, rfl⟩ := Nat.exists_eq_succ_of_ne_zero (Nat.ne_zero_of_lt hdepth)
      rfl
    | cons member members =>
      obtain ⟨key, v⟩ := member
      exact reads_obj key v members hkeys.here fun member hmember =>
        hreads member.2 (List.mem_map_of_mem hmember)

/-- **`loads` of a dump.** -/
theorem loads_dump (hkeys : v.Every Value.KeysDistinct) :
    loads (dump v).text = if (dump v).raised then .error .decodeError else .ok v := by
  have hbegins := begins_dumpValue v 0 []
  have hread := reads_dump hkeys 0 (dumpValue 0 v).text.length [] stops_nil
  rw [Output.before_nil] at hbegins hread
  unfold loads dump
  rw [if_neg hbegins.mark, skipSpace_of_bare hbegins.bare, hread le_rfl]
  split_ifs
  · rfl
  · rfl

/-- The dump of a list stands between its brackets. -/
theorem exists_text_arr {items : List Value} (hne : items ≠ [])
    (hraised : (dumpValue level (.arr items)).raised = false) :
    ∃ middle, (dumpValue level (.arr items)).text = '[' :: (middle ++ [']']) := by
  cases items with
  | nil => exact absurd rfl hne
  | cons v items =>
    have htext := before_arr level v items []
    rw [raised_arr, Bool.or_eq_false_iff] at hraised
    have hrefused : ¬v.refused = true := by
      intro hrefused
      rw [raised_of_refused hrefused] at hraised
      cases hraised.1
    rw [Output.before_nil, if_neg hrefused, before_of_not_raised hraised.1,
      before_of_not_raised hraised.2] at htext
    refine ⟨newline (level + 1) ++ ((dumpValue (level + 1) v).text ++
      ((dumpItems (level + 1) items).text ++ newline level)), ?_⟩
    rw [htext, List.append_assoc, List.append_assoc, List.append_assoc]

end Dumps

/-! ## What is read -/

section Read

variable {v : Value} {text rest : Text} {scan : Text → Except LoadError (Value × Text)}

/-- What a reader gives: values that can be written, with distinct keys. -/
abbrev Value.Loaded (v : Value) : Prop := v.Every fun w => w.Writable ∧ w.KeysDistinct

theorem Value.Every.mono {P Q : Value → Prop} (hPQ : ∀ v, P v → Q v) {v : Value} (h : v.Every P) :
    v.Every Q := by
  induction h with
  | intro h _ ih => exact .intro (hPQ _ h) ih

theorem Value.Every.and {P Q : Value → Prop} {v : Value} (hP : v.Every P) (hQ : v.Every Q) :
    v.Every fun w => P w ∧ Q w := by
  induction hP with
  | intro h _ ih => exact .intro ⟨h, hQ.here⟩ fun w hw => ih w hw (hQ.within w hw)

/-- Every value that `scan` gives is loaded. -/
def GivesLoaded (scan : Text → Except LoadError (Value × Text)) : Prop :=
  ∀ text v rest, scan text = .ok (v, rest) → v.Loaded

theorem loaded_of_scanItems (hscan : GivesLoaded scan) {limit : ℕ} {items : List Value}
    (h : scanItems scan limit text = .ok (items, rest)) : ∀ v ∈ items, v.Loaded := by
  induction limit generalizing text items rest with
  | zero => cases h
  | succ limit ih =>
    unfold scanItems at h
    obtain ⟨⟨v, after⟩, hv, h⟩ := bind_eq_ok.mp h
    dsimp only at h
    split at h
    · obtain ⟨rfl, -⟩ := Prod.mk.inj (Except.ok.inj h)
      exact List.forall_mem_cons.mpr ⟨hscan _ _ _ hv, nofun⟩
    · obtain ⟨⟨items, after⟩, hitems, h⟩ := bind_eq_ok.mp h
      obtain ⟨rfl, -⟩ := Prod.mk.inj (Except.ok.inj h)
      exact List.forall_mem_cons.mpr ⟨hscan _ _ _ hv, ih hitems⟩
    · cases h

/-- The members that have been read: distinct keys, and values that are loaded. -/
structure MembersLoaded (members : List (PyString × Value)) : Prop where
  keys : (members.map Prod.fst).Nodup
  values : ∀ member ∈ members, member.2.Loaded

theorem MembersLoaded.set {members : List (PyString × Value)} (h : MembersLoaded members)
    (key : PyString) (hv : v.Loaded) : MembersLoaded (setEntry key v members) where
  keys := nodup_setEntry h.keys
  values member hmember := by
    obtain ⟨name, w⟩ := member
    rcases (mem_setEntry h.keys).mp hmember with ⟨-, rfl⟩ | ⟨-, hold⟩
    · exact hv
    · exact h.values _ hold

theorem loaded_of_scanMembers (hscan : GivesLoaded scan) {limit : ℕ}
    {read members : List (PyString × Value)} (hread : MembersLoaded read)
    (h : scanMembers scan limit read text = .ok (members, rest)) : MembersLoaded members := by
  induction limit generalizing text read with
  | zero => cases h
  | succ limit ih =>
    unfold scanMembers at h
    split at h
    · split at h
      · cases h
      · rename_i key after hkey
        split at h
        · obtain ⟨⟨v, after⟩, hv, h⟩ := bind_eq_ok.mp h
          dsimp only at h
          split at h
          · obtain ⟨rfl, -⟩ := Prod.mk.inj (Except.ok.inj h)
            exact hread.set key (hscan _ _ _ hv)
          · exact ih (hread.set key (hscan _ _ _ hv)) h
          · cases h
        · cases h
    · cases h

theorem loaded_leaf (h : v.Writable ∧ v.KeysDistinct) (hparts : v.parts = []) : v.Loaded :=
  .intro h (by rw [hparts]; exact nofun)

theorem loaded_of_scanNumber (h : scanNumber text = .ok (v, rest)) : v.Loaded := by
  unfold scanNumber at h
  split at h
  · cases h
  · rename_i n after hn
    split_ifs at h with hint hlong
    · obtain ⟨rfl, -⟩ := Prod.mk.inj (Except.ok.inj h)
      obtain ⟨hne, hdigits⟩ := Numeral.digits_of_scan hn
      refine loaded_leaf ⟨decide_eq_false ?_, trivial⟩ rfl
      have habs : n.toInt.natAbs = Numeral.number n.whole := by
        unfold Numeral.toInt
        split_ifs
        · rw [Int.natAbs_neg, Int.natAbs_natCast]
        · exact Int.natAbs_natCast _
      rw [habs]
      exact fun hover => hlong (hover.trans_le (length_ofNat_number hne hdigits))
    · obtain ⟨rfl, -⟩ := Prod.mk.inj (Except.ok.inj h)
      exact loaded_leaf ⟨trivial, trivial⟩ rfl

theorem loaded_of_scanPlain (h : scanPlain text = .ok (v, rest)) : v.Loaded := by
  unfold scanPlain at h
  split at h
  · rename_i name w hfound
    obtain ⟨rfl, -⟩ := Prod.mk.inj (Except.ok.inj h)
    have hmem := List.mem_of_find?_eq_some hfound
    simp only [constants, List.mem_cons, List.not_mem_nil, or_false, Prod.mk.injEq] at hmem
    rcases hmem with ⟨-, rfl⟩ | ⟨-, rfl⟩ | ⟨-, rfl⟩ | ⟨-, rfl⟩ | ⟨-, rfl⟩ | ⟨-, rfl⟩
    all_goals exact loaded_leaf ⟨trivial, trivial⟩ rfl
  · exact loaded_of_scanNumber h

theorem givesLoaded_scanValue (depth : ℕ) : GivesLoaded (scanValue depth) := by
  induction depth with
  | zero =>
    intro text v rest h
    cases text with
    | nil => cases h
    | cons c text => cases h
  | succ depth ih =>
    intro text v rest h
    cases text with
    | nil => cases h
    | cons c text =>
      unfold scanValue at h
      split_ifs at h
      · split at h
        · cases h
        · obtain ⟨rfl, -⟩ := Prod.mk.inj (Except.ok.inj h)
          exact loaded_leaf ⟨trivial, trivial⟩ rfl
      · obtain ⟨rfl, -⟩ := Prod.mk.inj (Except.ok.inj h)
        exact loaded_leaf ⟨trivial, trivial⟩ rfl
      · obtain ⟨⟨items, after⟩, hitems, h⟩ := bind_eq_ok.mp h
        obtain ⟨rfl, -⟩ := Prod.mk.inj (Except.ok.inj h)
        exact (every_arr ⟨trivial, trivial⟩).mpr (loaded_of_scanItems ih hitems)
      · obtain ⟨rfl, -⟩ := Prod.mk.inj (Except.ok.inj h)
        exact loaded_leaf ⟨trivial, List.nodup_nil⟩ rfl
      · obtain ⟨⟨members, after⟩, hmembers, h⟩ := bind_eq_ok.mp h
        obtain ⟨rfl, -⟩ := Prod.mk.inj (Except.ok.inj h)
        have hnone : MembersLoaded [] := ⟨List.nodup_nil, nofun⟩
        have hloaded := loaded_of_scanMembers ih hnone hmembers
        exact (every_obj ⟨trivial, hloaded.keys⟩).mpr hloaded.values
      · exact loaded_of_scanPlain h

/-- What `loads` gives can be dumped again. -/
theorem loaded_of_loads (h : loads text = .ok v) : v.Loaded := by
  unfold loads at h
  split_ifs at h
  obtain ⟨⟨w, after⟩, hw, h⟩ := bind_eq_ok.mp h
  dsimp only at h
  split_ifs at h
  obtain rfl := Except.ok.inj h
  exact givesLoaded_scanValue _ _ _ _ hw

end Read

end Instro.Library.Json
