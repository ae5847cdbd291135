import Hvac.Screen
import Hvac.Lib.Spi

/-!
# From the buffer to the panel

`ST7567.c` sends commands and data bit by bit over four pins; what the panel
does with them is in the header, but for a few things that are parameters here.
After `ST7567_UpdateScreen` the panel has what is in the buffer.
-/

namespace Hvac

-- ---------------------------------------------------------------------------
-- The pins
-- ---------------------------------------------------------------------------

def transmitBits : Nat → U8 → List Spi.Write
  | 0, _ => []
  | n + 1, dat =>
    [⟨.clock, false⟩, ⟨.data, dat &&& 0x80 != 0⟩, ⟨.clock, true⟩] ++ transmitBits n (dat <<< 1)

/-- `ST7567_TransmitByte`: the writes to `CS`, `SCK` and `MOSI`. -/
def transmitByte (dat : U8) : List Spi.Write :=
  ⟨.select, false⟩ :: (transmitBits 8 dat ++ [⟨.select, true⟩])

inductive LcdWrite
  | command (byte : U8)
  | data (byte : U8)
  deriving DecidableEq

/-- `ST7567_WriteCommand` and `ST7567_WriteData`; the former turns `DC` back to data. -/
def LcdWrite.pins : LcdWrite → List Spi.Write
  | .command byte => ⟨.mode, false⟩ :: (transmitByte byte ++ [⟨.mode, true⟩])
  | .data byte => transmitByte byte

/-- The level of `DC` and the byte. -/
def LcdWrite.word : LcdWrite → Bool × U8
  | .command byte => (false, byte)
  | .data byte => (true, byte)

/-- What is read at an index of the buffer, or behind it. -/
def readBuffer (buffer : ScreenBuffer) (behind : Nat → U8) (i : Nat) : U8 :=
  if h : i < st7567BufferSize then buffer[i] else behind (i - st7567BufferSize)

/-- `ST7567_UpdateScreen`. The last of its pages is behind the buffer. -/
def updateScreen (buffer : ScreenBuffer) (behind : Nat → U8) : List LcdWrite :=
  (List.range 9).flatMap fun i =>
    [.command (0xB0 + BitVec.ofNat 8 i), .command 0x10, .command 0x00] ++
      (List.range 132).map fun j => .data (readBuffer buffer behind (i * 132 + j))

theorem msb_eq (dat : U8) : (dat &&& 0x80 != 0) = dat.msb := by
  revert dat
  decide

theorem transmitBits_eq (n : Nat) (dat : U8) : transmitBits n dat = Spi.shiftOut n dat := by
  induction n generalizing dat with
  | zero => rfl
  | succ n ih =>
    rw [transmitBits, ih, msb_eq]
    rfl

theorem transmitByte_eq (dat : U8) : transmitByte dat = Spi.transmit dat := by
  rw [transmitByte, transmitBits_eq]
  rfl

theorem pins_received (write : LcdWrite) (r : Spi.Receiver 8) (h : r.Idle) (hmode : r.mode = true) :
    Machine.trace Spi.step Spi.received write.pins r = [write.word] ∧
      (Machine.run Spi.step write.pins r).Idle ∧
      (Machine.run Spi.step write.pins r).mode = true := by
  have hstep (high : Bool) (r : Spi.Receiver 8) :
      Spi.step ⟨.mode, high⟩ r = { r with mode := high } := by
    simp [Spi.step, Spi.Receiver.Samples, Spi.Receiver.drive]
  have hnone (high : Bool) (r : Spi.Receiver 8) : Spi.received ⟨.mode, high⟩ r = none := by
    simp [Spi.received, Spi.Receiver.Samples]
  cases write with
  | command byte =>
    have hidle : ({ r with mode := false } : Spi.Receiver 8).Idle := ⟨h.select, h.count⟩
    obtain ⟨htrace, hrun, -⟩ := Spi.transmit_received _ hidle (by decide) byte
    simp only [LcdWrite.pins, transmitByte_eq, Machine.trace_cons, Machine.run_cons,
      Machine.trace_append, Machine.run_append, Machine.trace_nil, Machine.run_nil, hstep, hnone,
      htrace]
    exact ⟨rfl, ⟨hrun.select, hrun.count⟩, trivial⟩
  | data byte =>
    obtain ⟨htrace, hrun, hmode'⟩ := Spi.transmit_received r h (by decide) byte
    rw [LcdWrite.pins, transmitByte_eq, htrace, hmode', hmode]
    exact ⟨rfl, hrun, rfl⟩

/-- What is written comes out of the receiver, each byte as it was and of its kind. -/
theorem writes_received (writes : List LcdWrite) (r : Spi.Receiver 8) (h : r.Idle)
    (hmode : r.mode = true) :
    Machine.trace Spi.step Spi.received (writes.flatMap LcdWrite.pins) r =
      writes.map LcdWrite.word := by
  induction writes generalizing r with
  | nil => rfl
  | cons write rest ih =>
    obtain ⟨htrace, hidle, hmode'⟩ := pins_received write r h hmode
    rw [List.flatMap_cons, Machine.trace_append, htrace, ih _ hidle hmode']
    rfl

-- ---------------------------------------------------------------------------
-- The panel
-- ---------------------------------------------------------------------------

/-- What the header leaves open: the page that a page command sets, where the
address goes at the end of a page, and what the other commands do to it. -/
structure Controller where
  page : U8 → Nat
  wrap : Nat × Nat → Nat × Nat
  other : U8 → Nat × Nat → Nat × Nat

/-- The display memory by page and column, and the address of the next byte. -/
structure Panel where
  address : Nat × Nat
  ram : Nat → Nat → U8

def setRam (page column : Nat) (byte : U8) (ram : Nat → Nat → U8) (page' column' : Nat) : U8 :=
  if page' = page ∧ column' = column then byte else ram page' column'

/-- A byte of data goes to the address, which moves on by a column. -/
def Panel.data (controller : Controller) (byte : U8) (panel : Panel) : Panel where
  address :=
    if panel.address.2 = 0x83 then controller.wrap panel.address
    else (panel.address.1, panel.address.2 + 1)
  ram := setRam panel.address.1 panel.address.2 byte panel.ram

def Panel.command (controller : Controller) (byte : U8) (panel : Panel) : Panel :=
  { panel with
    address :=
      if byte >>> 4 = 0xB then (controller.page byte, panel.address.2)
      else if byte >>> 4 = 0x1 then
        (panel.address.1, panel.address.2 % 16 + (byte &&& 0x0F).toNat * 16)
      else if byte >>> 4 = 0x0 then
        (panel.address.1, panel.address.2 / 16 * 16 + (byte &&& 0x0F).toNat)
      else controller.other byte panel.address }

def Panel.take (controller : Controller) (word : Bool × U8) (panel : Panel) : Panel :=
  if word.1 then panel.data controller word.2 else panel.command controller word.2

section
variable {controller : Controller}

/-- The start of a page is addressed, whatever was before. -/
theorem run_address (i : Nat) (hi : i < 9) (panel : Panel) :
    Machine.run (Panel.take controller)
        ([(false, 0xB0 + BitVec.ofNat 8 i), (false, 0x10), (false, 0x00)]) panel =
      { panel with address := (controller.page (0xB0 + BitVec.ofNat 8 i), 0) } := by
  have hpage : ((0xB0 + BitVec.ofNat 8 i) >>> 4 : U8) = 0xB := by
    revert i
    decide
  have hset : panel.command controller (0xB0 + BitVec.ofNat 8 i) =
      { panel with address := (controller.page (0xB0 + BitVec.ofNat 8 i), panel.address.2) } := by
    rw [Panel.command, if_pos hpage]
  have hcolumn (panel : Panel) :
      ((panel.command controller 0x10).command controller 0x00) =
        { panel with address := (panel.address.1, 0) } := by
    have hlow : panel.address.2 % 16 / 16 = 0 := Nat.div_eq_of_lt (Nat.mod_lt _ (by decide))
    simp [Panel.command, hlow]
  simp only [Machine.run_cons, Machine.run_nil, Panel.take, Bool.false_eq_true, if_false]
  rw [hset, hcolumn]

/-- Data on one page fills as many of its columns. -/
theorem run_data (bytes : List U8) (panel : Panel) (h : panel.address.2 + bytes.length ≤ 132)
    (page column : Nat) :
    (Machine.run (Panel.take controller) (bytes.map fun byte => (true, byte)) panel).ram page
        column =
      if page = panel.address.1 ∧ panel.address.2 ≤ column ∧
        column < panel.address.2 + bytes.length then bytes.getD (column - panel.address.2) 0
      else panel.ram page column := by
  induction bytes generalizing panel with
  | nil =>
    rw [if_neg (by simp)]
    rfl
  | cons byte rest ih =>
    rw [List.length_cons] at h
    rw [List.map_cons, Machine.run_cons]
    have htake : Panel.take controller (true, byte) panel = panel.data controller byte := rfl
    have hram : (panel.data controller byte).ram page column =
      if page = panel.address.1 ∧ column = panel.address.2 then byte
      else panel.ram page column := rfl
    rw [htake]
    cases rest with
    | nil =>
      rw [List.map_nil, Machine.run_nil, hram]
      by_cases hhere : page = panel.address.1 ∧ column = panel.address.2
      · simp [hhere]
      · rw [if_neg hhere, if_neg]
        rintro ⟨hpage, hle, hlt⟩
        exact hhere ⟨hpage, by simp at hlt; omega⟩
    | cons next rest =>
      have hnext : (panel.data controller byte).address =
          (panel.address.1, panel.address.2 + 1) := by
        rw [Panel.data, if_neg (by simp at h; omega)]
      rw [ih _ (by rw [hnext]; omega), hnext, hram]
      by_cases hpage : page = panel.address.1
      · rcases Nat.lt_trichotomy column panel.address.2 with hlt | rfl | hgt
        · have hne : column ≠ panel.address.2 := by omega
          have hle : ¬panel.address.2 + 1 ≤ column := by omega
          have hle' : ¬panel.address.2 ≤ column := by omega
          simp [hne, hle, hle']
        · simp [hpage]
        · have hne : column ≠ panel.address.2 := by omega
          have hle : panel.address.2 + 1 ≤ column := hgt
          have hle' : panel.address.2 ≤ column := hgt.le
          have hsub : column - panel.address.2 = column - (panel.address.2 + 1) + 1 := by omega
          have hsum : panel.address.2 + 1 + (next :: rest).length =
            panel.address.2 + ((next :: rest).length + 1) := by omega
          rw [List.length_cons (a := byte), hsum, hsub]
          simp only [hpage, hne, hle, hle', true_and, and_false, if_false, List.getD_cons_succ]
      · simp [hpage]

/-- A page has all its columns filled, and no other page is touched. -/
theorem run_page (i : Nat) (hi : i < 9) (read : Nat → U8) (panel : Panel) (page column : Nat) :
    (Machine.run (Panel.take controller)
        ([(false, 0xB0 + BitVec.ofNat 8 i), (false, 0x10), (false, 0x00)] ++
          ((List.range 132).map read).map fun byte => (true, byte)) panel).ram page column =
      if page = controller.page (0xB0 + BitVec.ofNat 8 i) ∧ column < 132 then read column
      else panel.ram page column := by
  rw [Machine.run_append, run_address i hi, run_data _ _ (by simp)]
  by_cases hhere : page = controller.page (0xB0 + BitVec.ofNat 8 i) ∧ column < 132
  · simp [hhere]
  · rw [if_neg hhere, if_neg (by simpa using hhere)]

/-- The pages written so far hold their part of the buffer. -/
theorem run_pages (hpages : ∀ i < 8, controller.page (0xB0 + BitVec.ofNat 8 i) = i)
    (hlast : 8 ≤ controller.page 0xB8) (read : Nat → U8) (panel : Panel) (hn : n ≤ 9)
    (hpage : page < min n 8) (hcolumn : column < 132) :
    (Machine.run (Panel.take controller) ((List.range n).flatMap fun i =>
        [(false, 0xB0 + BitVec.ofNat 8 i), (false, 0x10), (false, 0x00)] ++
          ((List.range 132).map fun j => read (i * 132 + j)).map fun byte => (true, byte))
        panel).ram page column = read (page * 132 + column) := by
  induction n with
  | zero => omega
  | succ n ih =>
    rw [List.range_succ (n := n), List.flatMap_append, Machine.run_append, List.flatMap_singleton,
      run_page n hn]
    have hnew : page = controller.page (0xB0 + BitVec.ofNat 8 n) ↔ page = n := by
      rcases Nat.eq_or_lt_of_le (Nat.le_of_lt_succ hn) with rfl | hlt
      · have hbehind : (8 : Nat) ≤ controller.page (0xB0 + BitVec.ofNat 8 8) := hlast
        omega
      · rw [hpages n hlt]
    by_cases hhere : page = n
    · rw [if_pos ⟨hnew.mpr hhere, hcolumn⟩, hhere]
    · rw [if_neg fun h => hhere (hnew.mp h.1)]
      exact ih (Nat.le_of_succ_le hn) (by omega)

end

/-- What the panel shows at a pixel. -/
def Panel.pixel (panel : Panel) (x y : Nat) : Bool := (panel.ram (y / 8) x).getLsbD (y % 8)

theorem words_updateScreen (buffer : ScreenBuffer) (behind : Nat → U8) :
    (updateScreen buffer behind).map LcdWrite.word = (List.range 9).flatMap fun i =>
      [(false, 0xB0 + BitVec.ofNat 8 i), (false, 0x10), (false, 0x00)] ++
        ((List.range 132).map fun j => readBuffer buffer behind (i * 132 + j)).map
          fun byte => (true, byte) := by
  rw [updateScreen, List.map_flatMap]
  refine congrArg (List.flatMap · _) (funext fun i => ?_)
  simp [LcdWrite.word, Function.comp_def]

/-- From the pins the panel takes the buffer, pixel for pixel, on every panel that has
the pages of the header and the one behind them, whatever is behind the buffer. -/
theorem updateScreen_shown (controller : Controller)
    (hpages : ∀ i < 8, controller.page (0xB0 + BitVec.ofNat 8 i) = i)
    (hlast : 8 ≤ controller.page 0xB8) (buffer : ScreenBuffer) (behind : Nat → U8)
    (r : Spi.Receiver 8) (hidle : r.Idle) (hmode : r.mode = true) (panel : Panel)
    (x : Fin (st7567Width + st7567SegExpand)) (y : Fin st7567Height) :
    (Machine.run (Panel.take controller)
        (Machine.trace Spi.step Spi.received ((updateScreen buffer behind).flatMap LcdWrite.pins) r)
        panel).pixel x y = buffer.pixel x y := by
  have hx : x.val < 132 := x.isLt
  have hy : y.val < 64 := y.isLt
  have hread : readBuffer buffer behind (y.val / 8 * 132 + x.val) =
    buffer.get ⟨screenIndex x y, screenIndex_lt x.isLt y.isLt⟩ := by
    have hindex : y.val / 8 * 132 + x.val = screenIndex x y := Nat.add_comm ..
    rw [hindex, readBuffer, dif_pos (screenIndex_lt x.isLt y.isLt)]
    rfl
  rw [writes_received _ r hidle hmode, words_updateScreen, Panel.pixel,
    run_pages hpages hlast _ panel (Nat.le_refl 9) (by omega) hx, hread]
  rfl

end Hvac
