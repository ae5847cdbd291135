import Hvac.Drawing
import Hvac.Glyphs
import Hvac.Navigation
import Hvac.Panel
import Mathlib.Tactic.IntervalCases

/-!
# What the settings page shows

`SettingPage` with its drawing: the texts of the visible rows, each over those
before it, and the lines over the texts. The font is a parameter, and so is what
`temp1` has when the page is called, which a row shows whose value has no name.
-/

namespace Hvac

-- ---------------------------------------------------------------------------
-- Texts
-- ---------------------------------------------------------------------------

/-- The arguments of a `ST7567_GotoXY` and of the `ST7567_Puts` after it. -/
structure Text where
  x : U8
  y : U8
  str : List Char
  color : U8

def charCode (c : Char) : U8 := BitVec.ofNat 8 c.toNat

def Text.put (font : FontDef) (text : Text) (screen : Screen) : Screen :=
  puts (text.str.map charCode) font text.color
    (gotoXY (text.x.setWidth 16) (text.y.setWidth 16) screen)

/-- `%d`. -/
def decimal (n : Int) : List Char :=
  (if n < 0 then ['-'] else []) ++ Nat.toDigits 10 n.natAbs

/-- `SettingPageGetChar`. What has no name leaves `temp` as it was. -/
def settingPageGetChar (num : U8) (data : Int) (temp : List Char) : List Char :=
  match num.toNat with
  | 1 =>
    if data = moduleMaster.toNat then "Master".toList
    else if data = moduleSlave.toNat then "Slave".toList
    else temp
  | 2 =>
    if data = mode1Conventional.toNat then "Mode 1".toList
    else if data = mode2O.toNat then "Mode 2".toList
    else if data = mode3B.toNat then "Mode 3".toList
    else temp
  | 3 =>
    if data = unitCentigrade.toNat then ['C']
    else if data = unitFahrenheit.toNat then ['F']
    else temp
  | 4 | 5 | 6 =>
    if data = valueNull then "- -".toList else decimal (data.tdiv 10) ++ ".0".toList
  | 7 =>
    if data = fanAuto.toNat then "Auto".toList
    else if data = fanOpenAlways.toNat then "Open".toList
    else temp
  | 8 =>
    if data = tempFromRemote.toNat then "Remote".toList
    else if data = tempFromLocal.toNat then "Local".toList
    else temp
  | 9 => (decimal data).leftpad 4 ' ' ++ ['/']
  | 10 => (decimal data).leftpad 2 '0' ++ ['/']
  | 12 | 13 | 15 | 17 => (decimal data).leftpad 2 '0' ++ [':']
  | 11 | 14 | 16 | 18 => (decimal data).leftpad 2 '0'
  | _ => [' ']

-- ---------------------------------------------------------------------------
-- The page
-- ---------------------------------------------------------------------------

/-- One value of a row: the cursor position that it has, its column and its text. -/
structure SettingValue where
  cusor : U8
  x : U8
  str : List Char

/-- The values of a row. The last of them is printed into `temp1`. -/
def settingValues (i : Int) (s : SettingPass) (temp1 : List Char) :
    List SettingValue × List Char :=
  let info := s.module.info
  let single (num : U8) (data : Int) :=
    let temp1 := settingPageGetChar num data temp1
    ([⟨num, 62, temp1.leftpad 11 ' '⟩], temp1)
  let text (num : U8) (data : U16) := settingPageGetChar num data.toNat temp1
  match i with
  | 0 => single 1 info.moduleMode.toNat
  | 1 => single 2 info.mode.toNat
  | 2 => single 3 info.unit.toNat
  | 3 => single 4 info.daySetPoint.toInt
  | 4 => single 5 info.nightSetPoint.toInt
  | 5 => single 6 info.deadBand.toNat
  | 6 => single 7 info.fanRun.toNat
  | 7 => single 8 info.tempFrom.toNat
  | 8 =>
    ([⟨9, 62, text 9 s.timeFor.year⟩, ⟨10, 92, text 10 s.timeFor.month⟩,
      ⟨11, 110, text 11 s.timeFor.day⟩], text 11 s.timeFor.day)
  | 9 =>
    ([⟨12, 62, text 12 s.timeFor.hour⟩, ⟨13, 80, text 13 s.timeFor.minute⟩,
      ⟨14, 98, text 14 s.timeFor.second⟩], text 14 s.timeFor.second)
  | 10 =>
    ([⟨15, 62, text 15 (info.dayStartTime >>> 8)⟩,
      ⟨16, 80, text 16 (info.dayStartTime &&& 0x00FF)⟩], text 16 (info.dayStartTime &&& 0x00FF))
  | 11 =>
    ([⟨17, 62, text 17 (info.dayEndTime >>> 8)⟩,
      ⟨18, 80, text 18 (info.dayEndTime &&& 0x00FF)⟩], text 18 (info.dayEndTime &&& 0x00FF))
  | _ => ([], temp1)

/-- Under the cursor a value is inverted; one that is edited, every other time. -/
def valueColor (page : TypePage) (cnt : U8) (cusor : U8) : U8 :=
  if page.changeValue = yes then if cusor = page.cusor then if cnt % 2 = 0 then 0 else 1 else 1
  else if cusor = page.cusor then 0 else 1

/-- A row at this height: its name, then its values. -/
def rowTexts (cnt : U8) (i : Int) (y : U8) (s : SettingPass) (temp1 : List Char) : List Text :=
  ⟨2, y, (settingNames.getD i.toNat "").toList.rightpad 10 ' ', 1⟩ ::
    (settingValues i s temp1).1.map fun value =>
      ⟨value.x, y, value.str, valueColor s.page cnt value.cusor⟩

/-- The row loop: the pass, `temp1` and `y`, and the texts put so far. -/
structure RowLoop where
  pass : SettingPass
  temp1 : List Char
  y : U8
  texts : List Text

def drawSettingRow (cnt : U8) (loop : RowLoop) (i : Int) : RowLoop :=
  let pass := settingRow i loop.pass
  { pass
    temp1 := (settingValues i pass loop.temp1).2
    y := loop.y + 12
    texts := loop.texts ++ rowTexts cnt i loop.y pass loop.temp1 }

def drawSettingRows (cnt : U8) (page : TypePage) (m : Module) (temp1 : List Char) : RowLoop :=
  (scroll (showMenu page.cusor) m.menu).rows.foldl (drawSettingRow cnt)
    { pass := startPass page m, temp1, y := 0, texts := [] }

/-- The line under a row. -/
def drawRowLine (turns : Nat) (buffer : ScreenBuffer) (i : Nat) : Option ScreenBuffer :=
  let y := BitVec.ofNat 16 (12 * (i + 1))
  drawLine turns 0 y 128 y 1 buffer

/-- The lines between the columns and between the rows, and the frame. -/
def drawSettingLines (turns : Nat) (buffer : ScreenBuffer) : Option ScreenBuffer := do
  let buffer ← drawLine turns 62 0 62 62 1 buffer
  let buffer ← (List.range 4).foldlM (drawRowLine turns) buffer
  drawRectangle turns 0 0 128 60 1 buffer

/-- `SettingPage` up to `ST7567_UpdateScreen`. -/
def drawSettingPage (turns : Nat) (font : FontDef) (cnt : U8) (temp1 : List Char)
    (page : TypePage) (m : Module) (screen : Screen) :
    Option ((TypePage × Module) × Screen) := do
  let loop := drawSettingRows (cnt + 1) page m temp1
  let screen := loop.texts.foldl (fun screen text => text.put font screen) screen
  let buffer ← drawSettingLines turns screen.buffer
  return ((loop.pass.page, loop.pass.module), { screen with buffer })

-- ---------------------------------------------------------------------------
-- One text over another
-- ---------------------------------------------------------------------------

/-- Whether a pixel is in the box of a text, and on the screen. -/
def Text.Covers (font : FontDef) (text : Text) (p : Nat × Nat) : Prop :=
  p ∈ textBox (text.x.setWidth 16) (text.y.setWidth 16) (text.str.length * font.width.toNat)
    font.height.toNat ∩ visible

instance (font : FontDef) (text : Text) (p : Nat × Nat) : Decidable (text.Covers font p) :=
  inferInstanceAs (Decidable ((_ ∧ _) ∧ (_ ∧ _)))

def Text.picture (font : FontDef) (text : Text) : Nat × Nat → Bool :=
  font.textPicture text.color (text.x.setWidth 16) (text.y.setWidth 16) (text.str.map charCode)

/-- What a pixel has after some texts: that of the last one over it. -/
def overlaid (font : FontDef) (texts : List Text) (p : Nat × Nat) (old : Bool) : Bool :=
  texts.foldl (fun shown text => if text.Covers font p then text.picture font p else shown) old

/-- A text of the page, which fits into `temp`. -/
def Text.Fits (text : Text) : Prop := text.str.length < 20

theorem Text.put_drawn (font : FontDef) (text : Text) (h : text.Fits) (screen : Screen) :
    Drawn (text.picture font)
      (textBox (text.x.setWidth 16) (text.y.setWidth 16) (text.str.length * font.width.toNat)
        font.height.toNat ∩ visible) screen.buffer (text.put font screen).buffer := by
  have hwidth := font.width.isLt
  have hfit : (text.str.map charCode).length * font.width.toNat ≤ 65536 := by
    rw [List.length_map]
    calc text.str.length * font.width.toNat ≤ 20 * 256 := Nat.mul_le_mul h.le hwidth.le
      _ ≤ 65536 := by decide
  have hdrawn := puts_drawn (text.str.map charCode) font text.color
    (gotoXY (text.x.setWidth 16) (text.y.setWidth 16) screen) hfit
  rwa [List.length_map] at hdrawn

theorem puts_overlaid (font : FontDef) (texts : List Text) (hfit : ∀ text ∈ texts, text.Fits)
    (screen : Screen) (x : Fin (st7567Width + st7567SegExpand)) (y : Fin st7567Height) :
    (texts.foldl (fun screen text => text.put font screen) screen).buffer.pixel x y =
      overlaid font texts (x, y) (screen.buffer.pixel x y) := by
  induction texts generalizing screen with
  | nil => rfl
  | cons text rest ih =>
    obtain ⟨hfirst, hrest⟩ := List.forall_mem_cons.mp hfit
    obtain ⟨hin, hout⟩ := text.put_drawn font hfirst screen x y
    have hpixel : (text.put font screen).buffer.pixel x y =
        if text.Covers font (x, y) then text.picture font (x, y)
        else screen.buffer.pixel x y := by
      split <;> rename_i hcovers
      · exact hin hcovers
      · exact hout hcovers
    rw [List.foldl_cons, ih hrest, hpixel]
    rfl

/-- The last text over a pixel is the one that is seen. -/
theorem overlaid_last (font : FontDef) (h : text.Covers font p)
    (hlater : ∀ other ∈ later, ¬Text.Covers font other p) (earlier : List Text) (old : Bool) :
    overlaid font (earlier ++ text :: later) p old = text.picture font p := by
  have hrest (texts : List Text) (hclear : ∀ other ∈ texts, ¬Text.Covers font other p)
      (shown : Bool) : overlaid font texts p shown = shown := by
    induction texts generalizing shown with
    | nil => rfl
    | cons other rest ih =>
      obtain ⟨hother, hclear⟩ := List.forall_mem_cons.mp hclear
      exact (congrArg (overlaid font rest p) (if_neg hother)).trans (ih hclear shown)
  rw [overlaid, List.foldl_append, List.foldl_cons, if_pos h]
  exact hrest later hlater _

-- ---------------------------------------------------------------------------
-- The texts fit
-- ---------------------------------------------------------------------------

theorem length_decimal (h : n.natAbs < 65536) : (decimal n).length ≤ 6 := by
  have hdigits : (Nat.toDigits 10 n.natAbs).length ≤ 5 :=
    (Nat.length_toDigits_le_iff (by decide) (by decide)).mpr (Nat.lt_trans h (by decide))
  unfold decimal
  split <;> simp <;> omega

theorem length_settingPageGetChar (num : U8) (hdata : data.natAbs < 65536)
    (htemp : temp.length < 20) : (settingPageGetChar num data temp).length < 20 := by
  have hdecimal := length_decimal hdata
  have htenth : (decimal (data.tdiv 10)).length ≤ 6 := by
    refine length_decimal (Nat.lt_of_le_of_lt ?_ hdata)
    rw [Int.natAbs_tdiv]
    exact Nat.div_le_self ..
  unfold settingPageGetChar
  repeat' split
  all_goals simp
  all_goals omega

theorem length_settingNames (i : Nat) : (settingNames.getD i "").toList.length ≤ 11 := by
  have hnames : ∀ name ∈ settingNames, name.toList.length ≤ 11 := by simp [settingNames]
  rw [List.getD_eq_getElem?_getD]
  rcases h : settingNames[i]? with _ | name
  · simp
  · exact hnames name (List.mem_of_getElem? h)

-- ---------------------------------------------------------------------------
-- An edit and the rows around it
-- ---------------------------------------------------------------------------

theorem settingField_frame (f : SettingPass → β) (hadd : ∀ s, f (add s) = f s)
    (hsub : ∀ s, f (sub s) = f s) (hpage : ∀ s page, f { s with page } = f s) (s : SettingPass) :
    f (settingField cusor add sub s) = f s := by
  unfold settingField
  dsimp only
  repeat' split
  all_goals simp only [hadd, hsub, hpage]

theorem settingField_changeValue (cusor : U8) (add sub : SettingPass → SettingPass)
    (s : SettingPass) :
    (settingField cusor add sub s).page.changeValue = s.page.changeValue := by
  unfold settingField
  dsimp only
  repeat' split
  all_goals rfl

/-- The texts of a page on which nothing is edited, from the height of its first row on. -/
def pageTexts (cnt : U8) (s : SettingPass) : List Int → U8 → List Char → List Text
  | [], _, _ => []
  | i :: rest, y, temp1 =>
    rowTexts cnt i y s temp1 ++ pageTexts cnt s rest (y + 12) (settingValues i s temp1).2

/-- An edit is of the values of its own row. -/
theorem settingRow_values (hne : i ≠ j) (s : SettingPass) (temp1 : List Char) :
    settingValues j (settingRow i s) temp1 = settingValues j s temp1 := by
  have frame (cusor : U8) (add sub : SettingPass → SettingPass)
      (hadd : ∀ s, settingValues j (add s) temp1 = settingValues j s temp1)
      (hsub : ∀ s, settingValues j (sub s) temp1 = settingValues j s temp1) (s : SettingPass) :
      settingValues j (settingField cusor add sub s) temp1 = settingValues j s temp1 :=
    settingField_frame (fun s => settingValues j s temp1) hadd hsub (fun _ _ => rfl) s
  unfold settingRow
  split
  case h_13 => rfl
  all_goals repeat rw [frame]
  all_goals
    intro s
    unfold settingValues
    split <;> first | exact absurd rfl hne | rfl

theorem settingRow_valueColor (i : Int) (s : SettingPass) (cnt cusor : U8) :
    valueColor (settingRow i s).page cnt cusor = valueColor s.page cnt cusor := by
  have hchange : (settingRow i s).page.changeValue = s.page.changeValue := by
    unfold settingRow
    split <;> simp only [settingField_changeValue]
  rw [valueColor, valueColor, hchange, settingRow_cusor]

theorem settingRow_rowTexts (hne : i ≠ j) (cnt y : U8) (s : SettingPass) (temp1 : List Char) :
    rowTexts cnt j y (settingRow i s) temp1 = rowTexts cnt j y s temp1 := by
  simp only [rowTexts, settingRow_values hne, settingRow_valueColor]

/-- Rows that edit nothing are drawn as they are. -/
theorem drawSettingRow_idle (cnt : U8) (rows : List Int) (loop : RowLoop)
    (hidle : ∀ i ∈ rows, settingRow i loop.pass = loop.pass) :
    (rows.foldl (drawSettingRow cnt) loop).pass = loop.pass ∧
      (rows.foldl (drawSettingRow cnt) loop).texts =
        loop.texts ++ pageTexts cnt loop.pass rows loop.y loop.temp1 := by
  induction rows generalizing loop with
  | nil => exact ⟨rfl, (List.append_nil _).symm⟩
  | cons i rest ih =>
    obtain ⟨hfirst, hrest⟩ := List.forall_mem_cons.mp hidle
    have hpass : (drawSettingRow cnt loop i).pass = loop.pass := hfirst
    obtain ⟨hpass', htexts⟩ := ih (drawSettingRow cnt loop i) (by rwa [hpass])
    refine ⟨hpass'.trans hpass, ?_⟩
    rw [List.foldl_cons, htexts, hpass]
    simp only [drawSettingRow, hfirst, pageTexts, List.append_assoc]

/-- Drawn between the edits of the rows, the texts are those of the settings after the pass. -/
theorem drawSettingRow_edit (cnt : U8) (rows : List Int) (loop : RowLoop) (hnodup : rows.Nodup)
    (hrow : rowOf loop.pass.page.cusor ∈ rows) :
    let edited := settingRow (rowOf loop.pass.page.cusor) loop.pass
    (rows.foldl (drawSettingRow cnt) loop).pass = edited ∧
      (rows.foldl (drawSettingRow cnt) loop).texts =
        loop.texts ++ pageTexts cnt edited rows loop.y loop.temp1 := by
  intro edited
  induction rows generalizing loop with
  | nil => cases hrow
  | cons i rest ih =>
    obtain ⟨hnot, hnodup⟩ := List.nodup_cons.mp hnodup
    by_cases hi : i = rowOf loop.pass.page.cusor
    · have hidle : ∀ j ∈ rest, settingRow j edited = edited := by
        intro j hj
        refine settingRow_idle fun _ hcusor => hnot ?_
        rwa [hi, ← settingRow_cusor (rowOf loop.pass.page.cusor) loop.pass, hcusor]
      have hpass : (drawSettingRow cnt loop i).pass = edited := congrArg (settingRow · _) hi
      obtain ⟨hpass', htexts⟩ :=
        drawSettingRow_idle cnt rest (drawSettingRow cnt loop i) (by rwa [hpass])
      refine ⟨hpass'.trans hpass, ?_⟩
      rw [List.foldl_cons, htexts, hpass, pageTexts, ← List.append_assoc, ← hpass]
      rfl
    · -- A row above the cursor is drawn before the edit, but shows nothing that it changes.
      have hfirst : settingRow i loop.pass = loop.pass := settingRow_idle fun _ => Ne.symm hi
      have hpass : (drawSettingRow cnt loop i).pass = loop.pass := hfirst
      obtain ⟨hpass', htexts⟩ := ih (drawSettingRow cnt loop i) hnodup
        (hpass ▸ (List.mem_cons.mp hrow).resolve_left (Ne.symm hi))
      rw [hpass] at hpass' htexts
      refine ⟨hpass', ?_⟩
      rw [List.foldl_cons, htexts, pageTexts, ← List.append_assoc,
        settingRow_rowTexts (Ne.symm hi), settingRow_values (Ne.symm hi)]
      simp only [drawSettingRow, hfirst, edited]

-- ---------------------------------------------------------------------------
-- The page on the panel
-- ---------------------------------------------------------------------------

theorem settingValues_fit (i : Int) (s : SettingPass) (htemp : temp1.length < 20) :
    (∀ value ∈ (settingValues i s temp1).1, value.str.length < 20) ∧
      (settingValues i s temp1).2.length < 20 := by
  have hchar (num : U8) (data : Int) (hdata : data.natAbs < 65536) :=
    length_settingPageGetChar num hdata htemp
  have hbyte (v : U8) : Int.natAbs v.toNat < 65536 := Nat.lt_trans v.isLt (by decide)
  have hword (v : U16) : Int.natAbs v.toNat < 65536 := v.isLt
  have hsigned (v : S16) : v.toInt.natAbs < 65536 := by
    have hle := BitVec.le_toInt v
    have hlt := BitVec.toInt_lt (x := v)
    simp at hle hlt
    omega
  unfold settingValues
  split
  all_goals simp only [List.forall_mem_cons, List.not_mem_nil, List.length_leftpad, false_implies,
    implies_true, and_true]
  all_goals simp only [hchar, hbyte, hword, hsigned, htemp, Nat.max_lt, and_true]
  all_goals decide

theorem pageTexts_fit (cnt : U8) (s : SettingPass) (rows : List Int) (y : U8)
    (htemp : temp1.length < 20) : ∀ text ∈ pageTexts cnt s rows y temp1, text.Fits := by
  induction rows generalizing y temp1 with
  | nil => exact fun _ hin => nomatch hin
  | cons i rest ih =>
    obtain ⟨hvalues, htemp'⟩ := settingValues_fit i s htemp
    have hname := length_settingNames i.toNat
    intro text hin
    rcases List.mem_append.mp hin with hrow | hlater
    · rcases List.mem_cons.mp hrow with rfl | hvalue
      · simp only [Text.Fits, List.length_rightpad]
        omega
      · obtain ⟨value, hmem, rfl⟩ := List.mem_map.mp hvalue
        exact hvalues value hmem
    · exact ih _ htemp' text hlater

/-- The line right of the names, the four under the rows, and the frame. -/
def settingLines : Set (Nat × Nat) :=
  {p | p.1 = 62 ∧ p.2 ≤ 62} ∪ {p | p.1 < st7567Width ∧ ∃ i < 4, p.2 = 12 * (i + 1)} ∪
    outline 0 0 (st7567Width - 1) 60

theorem drawRowLine_painted (buffer : ScreenBuffer) (hi : i < 4) (hturns : st7567Width ≤ turns) :
    ∃ buffer', drawRowLine turns buffer i = some buffer' ∧
      Painted {p | p.1 < st7567Width ∧ p.2 = 12 * (i + 1)} 1 buffer buffer' := by
  have hy : (BitVec.ofNat 16 (12 * (i + 1))).toNat = 12 * (i + 1) :=
    Nat.mod_eq_of_lt (by omega)
  obtain ⟨buffer', hdraw, hpainted⟩ :=
    drawLine_level 0 (BitVec.ofNat 16 (12 * (i + 1))) 128 1 buffer hturns
  refine ⟨buffer', hdraw, hpainted.congr fun p _ _ => ?_⟩
  rw [hy]
  simp [rectangle, st7567Width, st7567Height]
  omega

theorem drawSettingLines_painted (buffer : ScreenBuffer) (hturns : st7567Width ≤ turns) :
    ∃ buffer', drawSettingLines turns buffer = some buffer' ∧
      Painted settingLines 1 buffer buffer' := by
  obtain ⟨columns, hcolumns, hpainted⟩ := drawLine_upright 62 0 62 1 buffer hturns
  have hrow : ∀ i ∈ List.range 4, ∀ buffer, ∃ buffer', drawRowLine turns buffer i = some buffer' ∧
      Painted {p | p.1 < st7567Width ∧ p.2 = 12 * (i + 1)} 1 buffer buffer' :=
    fun i hi buffer => drawRowLine_painted buffer (List.mem_range.mp hi) hturns
  obtain ⟨rows, hrows, hpainted'⟩ := drawn_foldlM (List.range 4) columns hrow
  obtain ⟨framed, hframed, hpainted''⟩ := drawRectangle_painted 0 0 128 60 1 rows hturns
  refine ⟨framed, ?_, ((hpainted.trans hpainted').trans hpainted'').congr fun p hpx hpy => ?_⟩
  · rw [drawSettingLines, hcolumns, Option.bind_eq_bind, Option.bind_some, hrows, Option.bind_some,
      hframed]
  · simp only [settingLines, Set.mem_union]
    refine or_congr (or_congr ?_ ?_) ?_
    · simp [rectangle, st7567Width, st7567Height]
      omega
    · simp [and_left_comm]
    · simp [visible, st7567Width, st7567Height]

/-- The drawing does not disturb the pass. -/
theorem drawSettingRows_pass (cnt : U8) (page : TypePage) (m : Module) (temp1 : List Char) :
    ((drawSettingRows cnt page m temp1).pass.page, (drawSettingRows cnt page m temp1).pass.module) =
      settingPage page m := by
  have hfold (rows : List Int) (loop : RowLoop) : (rows.foldl (drawSettingRow cnt) loop).pass =
      rows.foldl (fun s i => settingRow i s) loop.pass := by
    induction rows generalizing loop with
    | nil => rfl
    | cons i rest ih => exact ih (drawSettingRow cnt loop i)
  rw [drawSettingRows, hfold]
  rfl

theorem drawSettingRows_texts (hmenu : m.menu.Inside) (cnt : U8) (page : TypePage)
    (temp1 : List Char) :
    (drawSettingRows cnt page m temp1).texts = pageTexts cnt
      (settingRow (rowOf page.cusor) (startPass page m)) (scroll (showMenu page.cusor) m.menu).rows
      0 temp1 :=
  (drawSettingRow_edit cnt _ ⟨startPass page m, temp1, 0, []⟩ (MenuWindow.rows_nodup _)
    (rowOf_mem_scroll hmenu.size page.cusor)).2

/-- The panel after `ST7567_UpdateScreen` through the pins. -/
def Panel.updated (controller : Controller) (behind : Nat → U8) (r : Spi.Receiver 8)
    (buffer : ScreenBuffer) (panel : Panel) : Panel :=
  Machine.run (Panel.take controller)
    (Machine.trace Spi.step Spi.received ((updateScreen buffer behind).flatMap LcdWrite.pins) r)
    panel

/-- The page is on the panel: its lines, and beside them the text that is uppermost. -/
theorem drawSettingPage_shown (hturns : st7567Width ≤ turns) (font : FontDef) (cnt : U8)
    (htemp : temp1.length < 20) (page : TypePage) (hmenu : m.menu.Inside) (screen : Screen)
    (hpages : ∀ i < 8, controller.page (0xB0 + BitVec.ofNat 8 i) = i)
    (hlast : 8 ≤ controller.page 0xB8) (behind : Nat → U8) (hidle : Spi.Receiver.Idle r)
    (hmode : r.mode = true) (panel : Panel) :
    ∃ screen', drawSettingPage turns font cnt temp1 page m screen =
        some (settingPage page m, screen') ∧
      ∀ (x : Fin (st7567Width + st7567SegExpand)) (y : Fin st7567Height),
        let shown := (panel.updated controller behind r screen'.buffer).pixel x y
        ((x.val, y.val) ∈ settingLines → shown = true) ∧
          ((x.val, y.val) ∉ settingLines → shown = overlaid font (pageTexts (cnt + 1)
            (settingRow (rowOf page.cusor) (startPass page m))
            (scroll (showMenu page.cusor) m.menu).rows 0 temp1) (x, y)
            (screen.buffer.pixel x y)) := by
  let put := (drawSettingRows (cnt + 1) page m temp1).texts.foldl
    (fun screen text => text.put font screen) screen
  obtain ⟨buffer, hlines, hpainted⟩ := drawSettingLines_painted put.buffer hturns
  refine ⟨{ put with buffer }, ?_, fun x y => ?_⟩
  · simp only [drawSettingPage, drawSettingRows_pass]
    rw [hlines]
    rfl
  · have hshown := updateScreen_shown controller hpages hlast buffer behind r hidle hmode panel x y
    have hfit : ∀ text ∈ (drawSettingRows (cnt + 1) page m temp1).texts, text.Fits := by
      rw [drawSettingRows_texts hmenu]
      exact pageTexts_fit _ _ _ _ htemp
    have hput := puts_overlaid font _ hfit screen x y
    rw [← drawSettingRows_texts hmenu]
    obtain ⟨hin, hout⟩ := hpainted x y
    exact ⟨fun hline => hshown.trans (hin hline),
      fun hline => hshown.trans ((hout hline).trans hput)⟩

-- ---------------------------------------------------------------------------
-- The place of a value
-- ---------------------------------------------------------------------------

/-- The `data` of a row with one value. -/
def settingData (info : TypeInfo) (i : Int) : Int :=
  match i with
  | 0 => info.moduleMode.toNat
  | 1 => info.mode.toNat
  | 2 => info.unit.toNat
  | 3 => info.daySetPoint.toInt
  | 4 => info.nightSetPoint.toInt
  | 5 => info.deadBand.toNat
  | 6 => info.fanRun.toNat
  | 7 => info.tempFrom.toNat
  | _ => 0

theorem settingValues_single (hi : 0 ≤ i ∧ i < 8) (s : SettingPass) (temp1 : List Char) :
    (settingValues i s temp1).1 =
      [⟨BitVec.ofInt 8 (i + 1), 62, (settingPageGetChar (BitVec.ofInt 8 (i + 1))
        (settingData s.module.info i) temp1).leftpad 11 ' '⟩] := by
  obtain ⟨hlow, hhigh⟩ := hi
  interval_cases i <;> rfl

theorem pageTexts_append (cnt : U8) (s : SettingPass) (earlier later : List Int) (y : U8)
    (temp1 : List Char) : ∃ temp1',
    pageTexts cnt s (earlier ++ later) y temp1 = pageTexts cnt s earlier y temp1 ++
      pageTexts cnt s later (y + BitVec.ofNat 8 (12 * earlier.length)) temp1' := by
  induction earlier generalizing y temp1 with
  | nil => exact ⟨temp1, by simp [pageTexts]⟩
  | cons i rest ih =>
    obtain ⟨temp1', htexts⟩ := ih (y + 12) (settingValues i s temp1).2
    refine ⟨temp1', ?_⟩
    have hheight : y + 12 + BitVec.ofNat 8 (12 * rest.length) =
        y + BitVec.ofNat 8 (12 * (i :: rest).length) := by
      rw [List.length_cons, Nat.mul_succ, Nat.add_comm, BitVec.ofNat_add, BitVec.add_assoc]
      rfl
    rw [List.cons_append, pageTexts, htexts, pageTexts, List.append_assoc, hheight]

/-- The rows of a page go down the screen. -/
theorem pageTexts_below (cnt : U8) (s : SettingPass) (rows : List Int) (y : U8)
    (temp1 : List Char) (h : y.toNat + 12 * rows.length < 256) :
    ∀ text ∈ pageTexts cnt s rows y temp1, y.toNat ≤ text.y.toNat := by
  induction rows generalizing y temp1 with
  | nil => exact fun _ hin => nomatch hin
  | cons i rest ih =>
    rw [List.length_cons] at h
    have hnext : (y + 12).toNat = y.toNat + 12 := by
      rw [BitVec.toNat_add]
      exact Nat.mod_eq_of_lt (by simp; omega)
    intro text hin
    rcases List.mem_append.mp hin with hrow | hlater
    · rcases List.mem_cons.mp hrow with rfl | hvalue
      · exact Nat.le_refl _
      · obtain ⟨value, -, rfl⟩ := List.mem_map.mp hvalue
        exact Nat.le_refl _
    · have hle := ih (y + 12) (settingValues i s temp1).2 (by omega) text hlater
      omega

theorem fromCursor_byte (cursor : U8) (h : coordinate < 256) :
    fromCursor (cursor.setWidth 16) coordinate =
      if cursor.toNat ≤ coordinate then coordinate - cursor.toNat
      else 65536 + coordinate - cursor.toNat := by
  have hcursor := cursor.isLt
  rw [fromCursor, BitVec.toNat_sub, BitVec.toNat_setWidth, BitVec.toNat_ofNat]
  split <;> omega

theorem Text.not_covers_above (font : FontDef) (text : Text) (h : p.2 < text.y.toNat) :
    ¬text.Covers font p := by
  rintro ⟨⟨-, hline⟩, -⟩
  have hy := text.y.isLt
  have hheight := font.height.isLt
  rw [fromCursor_byte _ (Nat.lt_trans h hy), if_neg (Nat.not_le_of_lt h)] at hline
  omega

theorem Text.covers_iff (font : FontDef) (text : Text) (hleft : text.x.toNat ≤ p.1)
    (htop : text.y.toNat ≤ p.2) (hp : p ∈ visible) :
    text.Covers font p ↔ p.1 - text.x.toNat < text.str.length * font.width.toNat ∧
      p.2 - text.y.toNat < font.height.toNat := by
  have hright : p.1 < 256 := Nat.lt_trans hp.1 (by decide)
  have hbottom : p.2 < 256 := Nat.lt_trans hp.2 (by decide)
  have hcolumn := fromCursor_byte text.x hright
  have hline := fromCursor_byte text.y hbottom
  rw [if_pos hleft] at hcolumn
  rw [if_pos htop] at hline
  rw [← hcolumn, ← hline]
  exact and_iff_left hp

/-- Nothing is put over a value that stands alone in its row. -/
theorem overlaid_value (font : FontDef) (hwidth : font.width = 6) (hheight : font.height = 12)
    (cnt : U8) (s : SettingPass) (temp1 : List Char) (hi : 0 ≤ i ∧ i < 8)
    (hlength : (earlier ++ i :: later).length ≤ 5)
    (hstr : ∀ temp, settingPageGetChar (BitVec.ofInt 8 (i + 1)) (settingData s.module.info i)
      temp = str)
    (p : Nat × Nat) (hleft : 62 ≤ p.1) (hp : p ∈ visible) (hrow : p.2 / 12 = earlier.length)
    (old : Bool) :
    overlaid font (pageTexts cnt s (earlier ++ i :: later) 0 temp1) p old =
      Text.picture font ⟨62, BitVec.ofNat 8 (12 * earlier.length), str.leftpad 11 ' ',
        valueColor s.page cnt (BitVec.ofInt 8 (i + 1))⟩ p := by
  have hright : p.1 < 128 := hp.1
  have hbottom : p.2 < 64 := hp.2
  rw [List.length_append, List.length_cons] at hlength
  have hheights (k : Nat) (hk : k ≤ 5) : (BitVec.ofNat 8 (12 * k)).toNat = 12 * k :=
    Nat.mod_eq_of_lt (by omega)
  have hnext : BitVec.ofNat 8 (12 * earlier.length) + 12 =
      BitVec.ofNat 8 (12 * (earlier.length + 1)) := by
    rw [Nat.mul_succ, BitVec.ofNat_add]
    rfl
  obtain ⟨temp1', htexts⟩ := pageTexts_append cnt s earlier (i :: later) 0 temp1
  have hzero : 0 + BitVec.ofNat 8 (12 * earlier.length) = BitVec.ofNat 8 (12 * earlier.length) :=
    BitVec.zero_add _
  rw [htexts, hzero, pageTexts, rowTexts, settingValues_single hi, hstr, hnext, List.map_singleton,
    List.cons_append, List.append_cons, List.singleton_append]
  let value : Text := ⟨62, BitVec.ofNat 8 (12 * earlier.length), str.leftpad 11 ' ',
    valueColor s.page cnt (BitVec.ofInt 8 (i + 1))⟩
  have htop : value.y.toNat ≤ p.2 := by
    rw [hheights _ (by omega)]
    omega
  have hwide : p.1 - value.x.toNat < value.str.length * font.width.toNat := by
    have hpad := Nat.le_max_left 11 str.length
    have hsixtyTwo : value.x.toNat = 62 := rfl
    have hsix : (6 : U8).toNat = 6 := rfl
    rw [hwidth, hsix, hsixtyTwo, List.length_leftpad]
    omega
  have htall : p.2 - value.y.toNat < font.height.toNat := by
    have htwelve : (12 : U8).toNat = 12 := rfl
    rw [hheight, htwelve, hheights _ (by omega)]
    omega
  have hcovers : value.Covers font p := (value.covers_iff font hleft htop hp).mpr ⟨hwide, htall⟩
  refine overlaid_last font hcovers (fun other hother => ?_) _ old
  have hbelow := pageTexts_below cnt s later _ _
    (by rw [hheights _ (by omega)]; omega) other hother
  rw [hheights _ (by omega)] at hbelow
  exact other.not_covers_above font (by omega)

/-- After the page is drawn and updated, the panel shows its lines, and beside them the
texts of the settings as they are after the pass, each over those before it. So a named
value of the first eight settings, the edited one as well, is whole in its place. The
panel's page commands select its eight pages, the one behind them selects none of the
eight, and `temp1` holds a text of fewer than its 20 characters. -/
theorem settings_shown (turns : Nat) (hturns : st7567Width ≤ turns) (font : FontDef)
    (hfont : font.width = 6 ∧ font.height = 12) (cnt : U8) (temp1 : List Char)
    (htemp : temp1.length < 20) (page : TypePage)
    (hcusor : 1 ≤ page.cusor.toNat ∧ page.cusor.toNat ≤ 18) (m : Module) (hmenu : m.menu.Inside)
    (screen : Screen) (controller : Controller)
    (hpages : ∀ i < 8, controller.page (0xB0 + BitVec.ofNat 8 i) = i)
    (hlast : 8 ≤ controller.page 0xB8) (behind : Nat → U8) (r : Spi.Receiver 8) (hidle : r.Idle)
    (hmode : r.mode = true) (panel : Panel) :
    let rows := (scroll (showMenu page.cusor) m.menu).rows
    let edited := settingRow (rowOf page.cusor) (startPass page m)
    ∃ screen', drawSettingPage turns font cnt temp1 page m screen =
        some (settingPage page m, screen') ∧
      ∀ (x : Fin (st7567Width + st7567SegExpand)) (y : Fin st7567Height),
        let shown := (panel.updated controller behind r screen'.buffer).pixel x y
        ((x.val, y.val) ∈ settingLines → shown = true) ∧
          ((x.val, y.val) ∉ settingLines →
            shown = overlaid font (pageTexts (cnt + 1) edited rows 0 temp1) (x, y)
              (screen.buffer.pixel x y) ∧
            ∀ earlier i later str, rows = earlier ++ i :: later → i < 8 →
              (∀ temp, settingPageGetChar (BitVec.ofInt 8 (i + 1))
                (settingData edited.module.info i) temp = str) →
              62 ≤ x.val → x.val < st7567Width → y.val / 12 = earlier.length →
              shown = Text.picture font ⟨62, BitVec.ofNat 8 (12 * earlier.length),
                str.leftpad 11 ' ', valueColor page (cnt + 1) (BitVec.ofInt 8 (i + 1))⟩
                  (x, y)) := by
  intro rows edited
  obtain ⟨hfirst, hlast'⟩ := showMenu_bounds page.cusor hcusor.1 hcusor.2
  have hinside := hmenu.scroll hfirst hlast'
  have hlength : rows.length = 5 := by
    have hsize := hinside.size
    simp only [rows, MenuWindow.rows_eq, List.length_map, List.length_range]
    omega
  obtain ⟨screen', hdraw, hshown⟩ := drawSettingPage_shown hturns font cnt htemp page hmenu screen
    hpages hlast behind hidle hmode panel
  refine ⟨screen', hdraw, fun x y => ?_⟩
  obtain ⟨hline, hbeside⟩ := hshown x y
  refine ⟨hline, fun hout => ⟨hbeside hout, ?_⟩⟩
  intro earlier i later str hrows hi hstr hleft hright hrow
  have hmem : i ∈ rows := hrows ▸ List.mem_append_right _ List.mem_cons_self
  have hvalue := overlaid_value font hfont.1 hfont.2 (cnt + 1) edited temp1
    ⟨(hinside.mem_rows hmem).1, hi⟩ (by rw [← hrows, hlength]) hstr (x, y) hleft
    ⟨hright, y.isLt⟩ hrow (screen.buffer.pixel x y)
  rw [← hrows, settingRow_valueColor] at hvalue
  exact (hbeside hout).trans hvalue

/-- Of `Font6x12`, the `M`. -/
def fontOfM : FontDef where
  width := 6
  height := 12
  order := 1
  bytes := 1
  data := fun i =>
    [0x00, 0x00, 0x3B, 0x1B, 0x1B, 0x1B, 0x15, 0x15, 0x15, 0x35].getD (i.toNat - 540) 0x00
  width_pos := by decide
  bytes_eq := by decide

/-- After Up on the mode its row reads `Mode 2`, inverted while it is edited: in the third
row of the `M` its first point is dark and the gap after the second one lit. -/
theorem settings_shown_mode :
    ∃ screen', drawSettingPage 128 fontOfM 1 [] (pressUp 2) blank ⟨0, 0, fillScreen 0⟩ =
        some (settingPage (pressUp 2) blank, screen') ∧
      let shown := (Panel.updated ⟨fun byte => byte.toNat - 0xB0, id, fun _ => id⟩ (fun _ => 0)
        ⟨true, false, false, true, 0, 0⟩ screen'.buffer ⟨(0, 0), fun _ _ => 0⟩).pixel
      shown 62 14 = true ∧ shown 92 14 = false ∧ shown 94 14 = true := by
  obtain ⟨screen', hdraw, hshown⟩ := settings_shown 128 (Nat.le_refl 128) fontOfM ⟨rfl, rfl⟩ 1 []
    (by decide) (pressUp 2) (by decide) blank ⟨by decide, by decide, by decide⟩
    ⟨0, 0, fillScreen 0⟩ ⟨fun byte => byte.toNat - 0xB0, id, fun _ => id⟩ (by decide) (by decide)
    (fun _ => 0) ⟨true, false, false, true, 0, 0⟩ ⟨rfl, rfl⟩ rfl ⟨(0, 0), fun _ _ => 0⟩
  have hbeside (x : Nat) (hx : 62 < x) (hx' : x < 127) : (x, 14) ∉ settingLines := by
    rintro ((⟨heq, -⟩ | ⟨-, i, -, hrow⟩) | ⟨-, hedge⟩)
    · exact Nat.ne_of_gt hx heq
    · omega
    · simp [st7567Width] at hedge
      omega
  have hname (temp : List Char) : settingPageGetChar 2 (settingData (settingRow
      (rowOf (pressUp 2).cusor) (startPass (pressUp 2) blank)).module.info 1) temp =
      ['M', 'o', 'd', 'e', ' ', '2'] := by
    have hmode : settingData (settingRow (rowOf (pressUp 2).cusor)
      (startPass (pressUp 2) blank)).module.info 1 = mode2O.toNat := by decide +kernel
    rw [hmode]
    rfl
  have hvalue (x : Fin 132) (hx : 62 < x.val) (hx' : x.val < 127) :=
    ((hshown x ⟨14, by decide⟩).2 (hbeside x hx hx')).2 [0] 1 [2, 3, 4]
      ['M', 'o', 'd', 'e', ' ', '2'] (by decide) (by decide) hname hx.le
      (Nat.lt_succ_of_lt hx') rfl
  refine ⟨screen', hdraw, (hshown ⟨62, by decide⟩ ⟨14, by decide⟩).1 ?_, ?_, ?_⟩
  · exact .inl (.inl ⟨rfl, by decide⟩)
  · exact (hvalue 92 (by decide) (by decide)).trans (by decide)
  · exact (hvalue 94 (by decide) (by decide)).trans (by decide)

end Hvac
