import Hvac.Screen
import Mathlib.Tactic.Tauto

/-!
# Text on the screen

`ST7567_Putc` and `ST7567_Puts`: a character is drawn from its rows in the
font's table, each some bytes wide, and the cursor moves on by its width.
-/

namespace Hvac

/-- `FontDef_t`: the table is what is in memory from its address on. -/
structure FontDef where
  width : U8
  height : U8
  order : U8
  bytes : U8
  data : U32 → U8
  width_pos : 0 < width.toNat
  bytes_eq : bytes.toNat = (width.toNat + 7) / 8

/-- The cursor of `ST7567` and the buffer. -/
structure Screen where
  currentX : U16
  currentY : U16
  buffer : ScreenBuffer

def gotoXY (x y : U16) (screen : Screen) : Screen :=
  { screen with currentX := x, currentY := y }

/-- Row `i` of a character, its byte `j`. -/
def FontDef.row (font : FontDef) (ch : U8) (i j : Nat) : U8 :=
  font.data (((ch.setWidth 32 - 32) * font.height.setWidth 32 + BitVec.ofNat 32 i) *
    font.bytes.setWidth 32 + BitVec.ofNat 32 j)

/-- Whether bit `k` of a byte of a row is set, counted from the side the font counts from. -/
def FontDef.bit (font : FontDef) (b : U32) (k : Nat) : Bool :=
  if font.order = 0 then b <<< k &&& 0x80 != 0 else b &&& 1 <<< k != 0

/-- `!color`. -/
def otherColor (color : U8) : U8 := if color = 0 then 1 else 0

/-- How far the innermost loop goes: `k < 8 && k < font->width - j * 8`. -/
def FontDef.bits (font : FontDef) (j : Nat) : List Nat :=
  (List.range 8).takeWhile fun k => k < (font.width.setWidth 32 - BitVec.ofNat 32 (j * 8)).toNat

/-- `ST7567_Putc`. -/
def putc (ch : U8) (font : FontDef) (color : U8) (screen : Screen) : Screen :=
  { screen with
    currentX := screen.currentX + font.width.setWidth 16
    buffer := (List.range font.height.toNat).foldl (fun buffer i =>
      (List.range font.bytes.toNat).foldl (fun buffer j =>
        (font.bits j).foldl (fun buffer k =>
          drawPixel (screen.currentX + BitVec.ofNat 16 (j * 8 + k))
            (screen.currentY + BitVec.ofNat 16 i)
            (if font.bit ((font.row ch i j).setWidth 32) k then color else otherColor color)
            buffer) buffer) buffer) screen.buffer }

/-- `ST7567_Puts`, of the characters up to the zero. -/
def puts (str : List U8) (font : FontDef) (color : U8) (screen : Screen) : Screen :=
  str.foldl (fun screen ch => putc ch font color screen) screen

-- ---------------------------------------------------------------------------
-- One character
-- ---------------------------------------------------------------------------

/-- Whether a character has a point in this row and column of it. -/
def FontDef.glyph (font : FontDef) (ch : U8) (row column : Nat) : Bool :=
  font.bit ((font.row ch row (column / 8)).setWidth 32) (column % 8)

/-- How far a coordinate is after the cursor's. -/
def fromCursor (cursor : U16) (coordinate : Nat) : Nat :=
  (BitVec.ofNat 16 coordinate - cursor).toNat

/-- The pixels of a text of so many columns and rows at the cursor. -/
def textBox (x y : U16) (columns rows : Nat) : Set (Nat × Nat) :=
  {p | fromCursor x p.1 < columns ∧ fromCursor y p.2 < rows}

theorem takeWhile_lt_range (n m : Nat) :
    (List.range n).takeWhile (fun k => k < m) = List.range (min n m) := by
  induction n generalizing m with
  | zero => simp
  | succ n ih =>
    obtain _ | m := m
    · simp [List.range_succ_eq_map]
    · rw [List.range_succ_eq_map, List.takeWhile_cons, List.takeWhile_map]
      simp [Function.comp_def, Nat.succ_min_succ, List.range_succ_eq_map, ih m]

/-- The bits of the bytes of a row are its columns, with none to spare. -/
theorem mem_bits (font : FontDef) (hj : j < font.bytes.toNat) :
    k ∈ font.bits j ↔ k < 8 ∧ j * 8 + k < font.width.toNat := by
  have hwidth := font.width.isLt
  have hbytes := font.bytes_eq
  have hleft : (font.width.setWidth 32 - BitVec.ofNat 32 (j * 8)).toNat =
      font.width.toNat - j * 8 := by
    simp only [BitVec.toNat_sub, BitVec.toNat_setWidth, BitVec.toNat_ofNat]
    omega
  rw [FontDef.bits, hleft, takeWhile_lt_range, List.mem_range]
  omega

theorem fromCursor_add (cursor : U16) (h : n < 65536) :
    fromCursor cursor (cursor + BitVec.ofNat 16 n).toNat = n := by
  rw [fromCursor, BitVec.ofNat_toNat, BitVec.setWidth_eq, BitVec.add_comm, BitVec.add_sub_cancel,
    BitVec.toNat_ofNat]
  exact Nat.mod_eq_of_lt h

theorem add_fromCursor (cursor : U16) (h : coordinate < 65536) :
    (cursor + BitVec.ofNat 16 (fromCursor cursor coordinate)).toNat = coordinate := by
  rw [fromCursor, BitVec.ofNat_toNat, BitVec.setWidth_eq, BitVec.add_comm, BitVec.sub_add_cancel,
    BitVec.toNat_ofNat]
  exact Nat.mod_eq_of_lt h

/-- A character shows its points in the colour and the rest of its box in the other. -/
def FontDef.glyphPicture (font : FontDef) (color : U8) (x y : U16) (ch : U8) (p : Nat × Nat) :
    Bool :=
  (if font.glyph ch (fromCursor y p.2) (fromCursor x p.1) then color else otherColor color) ==
    colorFront

theorem putc_drawn (ch : U8) (font : FontDef) (color : U8) (screen : Screen) :
    Drawn (font.glyphPicture color screen.currentX screen.currentY ch)
      (textBox screen.currentX screen.currentY font.width.toNat font.height.toNat ∩ visible)
      screen.buffer (putc ch font color screen).buffer := by
  have hwidth := font.width.isLt
  have hheight := font.height.isLt
  have hbytes := font.bytes_eq
  refine (drawn_foldl (fun i => {p | ∃ j ∈ List.range font.bytes.toNat,
    ∃ k ∈ font.bits j, p ∈ ({((screen.currentX + BitVec.ofNat 16 (j * 8 + k)).toNat,
      (screen.currentY + BitVec.ofNat 16 i).toNat)} ∩ visible : Set (Nat × Nat))}) _ _
    fun i hi _ => drawn_foldl _ _ _ fun j hj _ => drawn_foldl _ _ _ fun k hk buffer => ?_).congr
      fun p hpx hpy => ?_
  · refine (drawPixel_painted _ _ _ buffer).redraw fun p hp => ?_
    obtain ⟨hk, hcolumn⟩ := (mem_bits font (List.mem_range.mp hj)).mp hk
    have hi := List.mem_range.mp hi
    have hdiv : (j * 8 + k) / 8 = j := by omega
    have hmod : (j * 8 + k) % 8 = k := by omega
    rw [Set.mem_singleton_iff.mp hp.1, FontDef.glyphPicture, fromCursor_add _ (by omega),
      fromCursor_add _ (by omega), FontDef.glyph, hdiv, hmod]
  · have hx : p.1 < 65536 := Nat.lt_trans hpx (by decide)
    have hy : p.2 < 65536 := Nat.lt_trans hpy (by decide)
    constructor
    · rintro ⟨i, hi, j, hj, k, hk, heq, hvisible⟩
      obtain ⟨hk, hcolumn⟩ := (mem_bits font (List.mem_range.mp hj)).mp hk
      have hi := List.mem_range.mp hi
      refine ⟨?_, hvisible⟩
      rw [Set.mem_singleton_iff.mp heq]
      refine ⟨?_, ?_⟩
      · rwa [fromCursor_add _ (by omega)]
      · rwa [fromCursor_add _ (by omega)]
    · rintro ⟨⟨hcolumn, hrow⟩, hvisible⟩
      have hj : fromCursor screen.currentX p.1 / 8 < font.bytes.toNat := by omega
      have hsplit : fromCursor screen.currentX p.1 / 8 * 8 + fromCursor screen.currentX p.1 % 8 =
        fromCursor screen.currentX p.1 := by omega
      refine ⟨_, List.mem_range.mpr hrow, _, List.mem_range.mpr hj,
        fromCursor screen.currentX p.1 % 8,
        (mem_bits font hj).mpr ⟨Nat.mod_lt _ (by decide), ?_⟩, ?_, hvisible⟩
      · rwa [hsplit]
      · rw [hsplit, add_fromCursor _ hx, add_fromCursor _ hy]
        rfl

-- ---------------------------------------------------------------------------
-- A text
-- ---------------------------------------------------------------------------

theorem fromCursor_lt (cursor : U16) (coordinate : Nat) : fromCursor cursor coordinate < 65536 :=
  BitVec.isLt _

/-- The cursor that has moved on is that much nearer. -/
theorem fromCursor_eq_add (cursor width : U16) (coordinate : Nat) :
    fromCursor cursor coordinate =
      (fromCursor (cursor + width) coordinate + width.toNat) % 65536 := by
  have hsub : BitVec.ofNat 16 coordinate - cursor =
      BitVec.ofNat 16 coordinate - (cursor + width) + width := by
    rw [← BitVec.sub_sub, BitVec.sub_add_cancel]
  rw [fromCursor, hsub, BitVec.toNat_add]
  rfl

/-- Each character of a text is in the columns of its place. -/
def FontDef.textPicture (font : FontDef) (color : U8) (x y : U16) (str : List U8) (p : Nat × Nat) :
    Bool :=
  (if font.glyph (str.getD (fromCursor x p.1 / font.width.toNat) 0) (fromCursor y p.2)
      (fromCursor x p.1 % font.width.toNat) then color else otherColor color) == colorFront

theorem puts_cursor (str : List U8) (font : FontDef) (color : U8) (screen : Screen) :
    (puts str font color screen).currentX =
        screen.currentX + BitVec.ofNat 16 (str.length * font.width.toNat) ∧
      (puts str font color screen).currentY = screen.currentY := by
  induction str generalizing screen with
  | nil => exact ⟨by simp [puts], rfl⟩
  | cons ch rest ih =>
    obtain ⟨hx, hy⟩ := ih (putc ch font color screen)
    refine ⟨hx.trans ?_, hy⟩
    refine BitVec.eq_of_toNat_eq ?_
    have hwidth := font.width.isLt
    simp only [putc, List.length_cons, Nat.succ_mul, BitVec.toNat_add, BitVec.toNat_setWidth,
      BitVec.toNat_ofNat]
    omega

/-- A text that does not come round to its own start is drawn character by
character, in the colour or, by any other colour than the front one, inverted. -/
theorem puts_drawn (str : List U8) (font : FontDef) (color : U8) (screen : Screen)
    (hfit : str.length * font.width.toNat ≤ 65536) :
    Drawn (font.textPicture color screen.currentX screen.currentY str)
      (textBox screen.currentX screen.currentY (str.length * font.width.toNat)
        font.height.toNat ∩ visible) screen.buffer (puts str font color screen).buffer := by
  induction str generalizing screen with
  | nil => exact (Drawn.refl _ _).congr fun p _ _ => by simp [textBox]
  | cons ch rest ih =>
    have hpos := font.width_pos
    have hwidth := font.width.isLt
    rw [List.length_cons, Nat.succ_mul] at hfit
    have hadvance (coordinate : Nat) :=
      fromCursor_eq_add screen.currentX (font.width.setWidth 16) coordinate
    have hsame : (font.width.setWidth 16).toNat = font.width.toNat := by
      rw [BitVec.toNat_setWidth]
      omega
    have hfirst := putc_drawn ch font color screen
    have hrest := ih (putc ch font color screen) (by omega)
    have hcurrent : (putc ch font color screen).currentX =
      screen.currentX + font.width.setWidth 16 := rfl
    refine ((hfirst.redraw fun p hp => ?_).trans (hrest.redraw fun p hp => ?_)).congr
      fun p _ _ => ?_
    · obtain ⟨⟨hcolumn, -⟩, -⟩ := hp
      rw [FontDef.glyphPicture, FontDef.textPicture, Nat.div_eq_of_lt hcolumn,
        Nat.mod_eq_of_lt hcolumn]
      rfl
    · obtain ⟨⟨hcolumn, -⟩, -⟩ := hp
      rw [hcurrent] at hcolumn
      have hnear : fromCursor screen.currentX p.1 =
          fromCursor (screen.currentX + font.width.setWidth 16) p.1 + font.width.toNat := by
        rw [hadvance, hsame]
        exact Nat.mod_eq_of_lt (by omega)
      rw [FontDef.textPicture, FontDef.textPicture, hcurrent, hnear, Nat.add_div_right _ hpos,
        Nat.add_mod_right]
      rfl
    · have hnear := hadvance p.1
      have hlt := fromCursor_lt (screen.currentX + font.width.setWidth 16) p.1
      rw [hsame] at hnear
      have hrow : (putc ch font color screen).currentY = screen.currentY := rfl
      have hcolumns : fromCursor screen.currentX p.1 < font.width.toNat ∨
          fromCursor (screen.currentX + font.width.setWidth 16) p.1 <
            rest.length * font.width.toNat ↔
          fromCursor screen.currentX p.1 < rest.length * font.width.toNat + font.width.toNat := by
        omega
      simp only [Set.mem_union, Set.mem_inter_iff, textBox, Set.mem_ofPred_eq, hcurrent, hrow,
        List.length_cons, Nat.succ_mul, ← hcolumns]
      tauto

end Hvac
