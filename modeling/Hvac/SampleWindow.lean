import Hvac.FailSafe
import Hvac.Lib.Slist
import Mathlib.Algebra.Ring.Int.Defs

/-!
# The list of samples

`GetNtcValue` with its list as it is in memory: nodes of the heap after the
static head. Each call refines the one on lists of numbers, and the list holds
the last ten samples, from which the value is computed.
-/

namespace Hvac

variable {A : Type} [DecidableEq A]

/-- The links and samples at each address, and the blocks `rt_malloc` has given out. -/
structure NtcHeap (A : Type) where
  next : A → Option A
  data : A → Int
  live : List A

/-- One call, with the block `rt_malloc` finds if it finds one. -/
structure NtcCall (A : Type) where
  adc : AdcSample
  block : A

abbrev NtcCall.res (call : NtcCall A) : Int := ntcResistance call.adc.value

/-- A block for the sample, not in the list yet. -/
def NtcHeap.alloc (heap : NtcHeap A) (call : NtcCall A) : NtcHeap A :=
  { heap with data := Function.update heap.data call.block call.res, live := call.block :: heap.live }

def NtcHeap.free (heap : NtcHeap A) (block : A) : NtcHeap A :=
  { heap with live := heap.live.erase block }

def NtcHeap.insert (heap : NtcHeap A) (list : A) (call : NtcCall A) : NtcHeap A :=
  { heap with next := Slist.insert list call.block heap.next }

/-- The last node is taken out and given back before the new one goes in. -/
def NtcHeap.replaceLast (heap : NtcHeap A) (list : A) (turns : Nat) (call : NtcCall A) :
    Option (NtcHeap A) := do
  let first ← Slist.tail heap.next turns list
  let next ← Slist.remove turns list first heap.next
  return ({ heap with next }.free first).insert list call

/-- `GetNtcValue` on the list at `list`, each of its loops with so many turns to end in. -/
def getNtcValueAt (list : A) (turns : Nat) (call : NtcCall A) (heap : NtcHeap A) :
    Option (NtcHeap A × Int) :=
  if !call.adc.found then some (heap, 1)
  else if !call.adc.disabled then some (heap, valueNull)
  else do
    let len ← Slist.len heap.next turns list
    if (BitVec.ofNat 8 len).toNat < 10 then
      return (if call.adc.malloc then (heap.alloc call).insert list call else heap, valueNull)
    else
      let heap ← if call.adc.malloc then (heap.alloc call).replaceLast list turns call else some heap
      let nodes ← Slist.nodes heap.next turns list
      let num := nodes.foldl (fun num temp => num + heap.data temp) 0
      return (heap, res2Temp (BitVec.ofInt 32 (num.tdiv 10)))

-- ---------------------------------------------------------------------------
-- One call
-- ---------------------------------------------------------------------------

/-- The list at `list` has these nodes, and they hold these samples. -/
structure NtcHeap.Holds (heap : NtcHeap A) (list : A) (nodes : List A) (samples : List Int) :
    Prop where
  isList : Slist.IsList heap.next list nodes
  live : ∀ node ∈ nodes, node ∈ heap.live
  data : nodes.map heap.data = samples

/-- `rt_malloc` gives out what is neither the head nor given out. -/
def NtcCall.Fresh (call : NtcCall A) (list : A) (heap : NtcHeap A) : Prop :=
  call.block ∉ list :: heap.live

instance (call : NtcCall A) (list : A) (heap : NtcHeap A) : Decidable (call.Fresh list heap) :=
  inferInstanceAs (Decidable (_ ∉ _))

/-- A new one in front, and if there were ten the last one goes. -/
def shiftIn {α : Type*} (x : α) (list : List α) : List α :=
  if list.length < 10 then x :: list else x :: list.dropLast

/-- The call has a sample and a block for it. -/
def AdcSample.Takes (sample : AdcSample) : Prop :=
  sample.found = true ∧ sample.disabled = true ∧ sample.malloc = true

instance (sample : AdcSample) : Decidable sample.Takes := inferInstanceAs (Decidable (_ ∧ _ ∧ _))

theorem getNtcValue_samples (sample : AdcSample) (samples : List Int) :
    (getNtcValue sample samples).1 =
      if sample.Takes then shiftIn (ntcResistance sample.value) samples else samples := by
  cases hfound : sample.found with
  | false => simp [getNtcValue, AdcSample.Takes, hfound]
  | true =>
    cases hdisabled : sample.disabled with
    | false => simp [getNtcValue, AdcSample.Takes, hfound, hdisabled]
    | true =>
      by_cases h : samples.length < 10
      · simp [getNtcValue, AdcSample.Takes, shiftIn, hfound, hdisabled, h]
      · simp [getNtcValue, AdcSample.Takes, shiftIn, hfound, hdisabled, h]

theorem NtcHeap.Holds.length (h : NtcHeap.Holds heap list nodes samples) :
    samples.length = nodes.length := by
  rw [← h.data, List.length_map]

theorem NtcHeap.Holds.foldl (h : NtcHeap.Holds heap list nodes samples) :
    nodes.foldl (fun num temp => num + heap.data temp) 0 = samples.foldl (· + ·) 0 := by
  rw [← h.data, List.foldl_map]

theorem NtcHeap.Holds.alloc (h : NtcHeap.Holds heap list nodes samples) {call : NtcCall A}
    (hfresh : call.Fresh list heap) : (heap.alloc call).Holds list nodes samples := by
  refine ⟨h.isList, fun node hn => List.mem_cons_of_mem _ (h.live node hn), ?_⟩
  rw [← h.data]
  refine List.map_congr_left fun node hn => ?_
  have hne : node ≠ call.block := by
    rintro rfl
    exact hfresh (List.mem_cons_of_mem _ (h.live _ hn))
  exact Function.update_of_ne hne ..

theorem NtcHeap.Holds.insert (h : NtcHeap.Holds heap list nodes samples) {call : NtcCall A}
    (hout : call.block ∉ list :: nodes) (hlive : call.block ∈ heap.live)
    (hdata : heap.data call.block = call.res) :
    (heap.insert list call).Holds list (call.block :: nodes) (call.res :: samples) := by
  refine ⟨h.isList.insert hout, fun node hn => ?_, ?_⟩
  · rcases List.mem_cons.mp hn with rfl | hn
    · exact hlive
    · exact h.live node hn
  · rw [List.map_cons, ← h.data]
    exact congrArg (· :: _) hdata

/-- The fresh block is not in the list, is given out and holds the sample. -/
theorem NtcCall.Fresh.block {call : NtcCall A} (hfresh : call.Fresh list heap)
    (h : NtcHeap.Holds heap list nodes samples) :
    call.block ∉ list :: nodes ∧ call.block ∈ (heap.alloc call).live ∧
      (heap.alloc call).data call.block = call.res := by
  refine ⟨fun hm => hfresh ?_, List.mem_cons_self, Function.update_self ..⟩
  rcases List.mem_cons.mp hm with heq | hm
  · exact heq ▸ List.mem_cons_self
  · exact List.mem_cons_of_mem _ (h.live _ hm)

theorem NtcHeap.Holds.replaceLast (h : NtcHeap.Holds heap list nodes samples)
    (hnodes : nodes ≠ []) (hturns : nodes.length < turns) {call : NtcCall A}
    (hfresh : call.Fresh list heap) :
    ∃ heap', (heap.alloc call).replaceLast list turns call = some heap' ∧
      heap'.Holds list (call.block :: nodes.dropLast) (call.res :: samples.dropLast) := by
  obtain ⟨hout, hlive, hdata⟩ := hfresh.block h
  have halloc := h.alloc hfresh
  obtain ⟨first, last, rfl⟩ : ∃ first last, nodes = first ++ [last] :=
    ⟨nodes.dropLast, nodes.getLast hnodes, (List.dropLast_concat_getLast hnodes).symm⟩
  rw [List.length_append, List.length_singleton] at hturns
  have htail := halloc.isList.chain.tail_eq hturns
  obtain ⟨next, hremove, hrest⟩ := halloc.isList.remove_last (Nat.lt_of_succ_lt hturns)
  have hnodup := (List.nodup_cons.mp h.isList.nodup).2
  have hlast (node : A) (hn : node ∈ first) : node ≠ last := by
    rintro rfl
    exact (List.nodup_append.mp hnodup).2.2 _ hn _ List.mem_cons_self rfl
  have hblock : call.block ≠ last := by
    rintro heq
    exact hout (List.mem_cons_of_mem _ (heq ▸ List.mem_append_right _ List.mem_cons_self))
  -- the list without its last node, whose block is free again
  have hshort : ({ heap.alloc call with next }.free last).Holds list first samples.dropLast := by
    refine ⟨hrest, fun node hn => ?_, ?_⟩
    · exact (List.mem_erase_of_ne (hlast node hn)).mpr (halloc.live node (List.mem_append_left _ hn))
    · rw [← halloc.data, List.map_append, List.map_singleton, List.dropLast_concat]
      rfl
  refine ⟨({ heap.alloc call with next }.free last).insert list call, ?_, ?_⟩
  · simp only [NtcHeap.replaceLast, htail, hremove, Option.bind_eq_bind, Option.bind_some]
    rfl
  · rw [List.dropLast_concat]
    refine hshort.insert (fun hm => hout ?_) ((List.mem_erase_of_ne hblock).mpr hlive) hdata
    rcases List.mem_cons.mp hm with heq | hm
    · exact heq ▸ List.mem_cons_self
    · exact List.mem_cons_of_mem _ (List.mem_append_left _ hm)

theorem NtcHeap.Holds.getNtcValueAt_short (h : NtcHeap.Holds heap list nodes samples)
    (hshort : nodes.length < 10) (hturns : 10 < turns) {call : NtcCall A}
    (hfound : call.adc.found = true) (hdisabled : call.adc.disabled = true)
    (hfresh : call.Fresh list heap) :
    ∃ heap', getNtcValueAt list turns call heap =
        some (heap', (getNtcValue call.adc samples).2) ∧
      heap'.Holds list (if call.adc.Takes then shiftIn call.block nodes else nodes)
        (if call.adc.Takes then shiftIn call.res samples else samples) := by
  have hnodes := h.length
  have hcount : Slist.len heap.next turns list = some nodes.length :=
    h.isList.chain.len_eq (by omega)
  have hbyte : nodes.length % 256 = nodes.length := Nat.mod_eq_of_lt (by omega)
  cases hmalloc : call.adc.malloc with
  | false =>
    refine ⟨heap, ?_, by simpa [AdcSample.Takes, hmalloc] using h⟩
    simp [Hvac.getNtcValueAt, getNtcValue, hfound, hdisabled, hmalloc, hcount, hbyte, hnodes,
      hshort]
  | true =>
    obtain ⟨hout, hlive, hdata⟩ := hfresh.block h
    refine ⟨(heap.alloc call).insert list call, ?_, ?_⟩
    · simp [Hvac.getNtcValueAt, getNtcValue, hfound, hdisabled, hmalloc, hcount, hbyte, hnodes,
        hshort]
    · simpa [AdcSample.Takes, shiftIn, NtcCall.res, hfound, hdisabled, hmalloc, hnodes, hshort]
        using (h.alloc hfresh).insert hout hlive hdata

theorem NtcHeap.Holds.getNtcValueAt_full (h : NtcHeap.Holds heap list nodes samples)
    (hfull : nodes.length = 10) (hturns : 10 < turns) {call : NtcCall A}
    (hfound : call.adc.found = true) (hdisabled : call.adc.disabled = true)
    (hfresh : call.Fresh list heap) :
    ∃ heap', getNtcValueAt list turns call heap =
        some (heap', (getNtcValue call.adc samples).2) ∧
      heap'.Holds list (if call.adc.Takes then shiftIn call.block nodes else nodes)
        (if call.adc.Takes then shiftIn call.res samples else samples) := by
  have hnodes := h.length
  have hroom : nodes.length < turns := by omega
  have hcount : Slist.len heap.next turns list = some nodes.length := h.isList.chain.len_eq hroom
  have hbyte : nodes.length % 256 = nodes.length := Nat.mod_eq_of_lt (by omega)
  have hshort : ¬nodes.length < 10 := by omega
  cases hmalloc : call.adc.malloc with
  | false =>
    have hall : Slist.nodes heap.next turns list = some nodes := h.isList.chain.nodes_eq hroom
    refine ⟨heap, ?_, by simpa [AdcSample.Takes, hmalloc] using h⟩
    simp [Hvac.getNtcValueAt, getNtcValue, hfound, hdisabled, hmalloc, hcount, hbyte, hnodes,
      hshort, hall, h.foldl]
  | true =>
    have hne : nodes ≠ [] := by
      rintro rfl
      cases hfull
    obtain ⟨heap', hreplace, hheap'⟩ := h.replaceLast hne hroom hfresh
    have hcount' : (call.block :: nodes.dropLast).length < turns := by
      rw [List.length_cons, List.length_dropLast]
      omega
    have hall := hheap'.isList.chain.nodes_eq hcount'
    have hsum := hheap'.foldl
    refine ⟨heap', ?_, ?_⟩
    · simp only [Hvac.getNtcValueAt, getNtcValue, hfound, hdisabled, hmalloc, hcount, hbyte,
        hnodes, hshort, hreplace, hall, hsum, BitVec.toNat_ofNat, Nat.reducePow, Bool.not_true,
        Bool.false_eq_true, if_false, if_true, Option.bind_eq_bind, Option.bind_some]
      rfl
    · simpa [AdcSample.Takes, shiftIn, NtcCall.res, hfound, hdisabled, hmalloc, hnodes, hshort]
        using hheap'

/-- With at most ten samples, the call in memory is the call on lists. -/
theorem NtcHeap.Holds.getNtcValueAt (h : NtcHeap.Holds heap list nodes samples)
    (hlen : samples.length ≤ 10) (hturns : 10 < turns) {call : NtcCall A}
    (hfresh : call.Fresh list heap) :
    ∃ heap', getNtcValueAt list turns call heap =
        some (heap', (getNtcValue call.adc samples).2) ∧
      heap'.Holds list (if call.adc.Takes then shiftIn call.block nodes else nodes)
        (getNtcValue call.adc samples).1 := by
  rw [getNtcValue_samples]
  cases hfound : call.adc.found with
  | false =>
    refine ⟨heap, by simp [Hvac.getNtcValueAt, getNtcValue, hfound], ?_⟩
    simpa [AdcSample.Takes, hfound] using h
  | true =>
    cases hdisabled : call.adc.disabled with
    | false =>
      refine ⟨heap, by simp [Hvac.getNtcValueAt, getNtcValue, hfound, hdisabled], ?_⟩
      simpa [AdcSample.Takes, hdisabled] using h
    | true =>
      rw [h.length] at hlen
      rcases Nat.lt_or_eq_of_le hlen with hshort | hfull
      · exact h.getNtcValueAt_short hshort hturns hfound hdisabled hfresh
      · exact h.getNtcValueAt_full hfull hturns hfound hdisabled hfresh

-- ---------------------------------------------------------------------------
-- The last ten samples
-- ---------------------------------------------------------------------------

theorem shiftIn_lastTen {α : Type*} (past : List α) (x : α) :
    shiftIn x (past.reverse.take 10) = (past ++ [x]).reverse.take 10 := by
  unfold shiftIn
  rw [List.reverse_append, List.reverse_singleton, List.singleton_append, List.take_succ_cons,
    List.length_take, List.length_reverse]
  have hlen : past.reverse.length = past.length := List.length_reverse
  by_cases h : past.length < 10
  · have hshort : past.reverse.length ≤ 9 := by omega
    rw [if_pos (by omega), List.take_of_length_le hshort,
      List.take_of_length_le (Nat.le_succ_of_le hshort)]
  · rcases Nat.lt_or_ge 10 past.length with hlong | hten
    · rw [if_neg (by omega), List.dropLast_take (hlen ▸ hlong)]
    · have hle : past.reverse.length ≤ 10 := by omega
      rw [if_neg (by omega), List.take_of_length_le hle, List.dropLast_eq_take]
      congr 2
      omega

/-- What the `k`-th call returns, counted from one: nothing till the list is
full, then the temperature of the tenth of the sum of the last ten samples. -/
def ntcValueAt (resistances : List Int) (k : Nat) : Int :=
  if k ≤ 10 then valueNull
  else res2Temp (BitVec.ofInt 32 (((resistances.drop (k - 10)).take 10).sum.tdiv 10))

/-- The last ten of the samples so far are ten of all the samples. -/
theorem take_drop_append_cons {α : Type*} (past future : List α) (x : α) (h : 10 ≤ past.length) :
    ((past ++ x :: future).drop (past.length + 1 - 10)).take 10 =
      (past ++ [x]).drop ((past ++ [x]).length - 10) := by
  have hsplit : past ++ x :: future = past ++ [x] ++ future := by simp
  have hlen : (past ++ [x]).length = past.length + 1 := by simp
  rw [hsplit, hlen, List.drop_append_of_le_length (by omega)]
  refine List.take_left' ?_
  rw [List.length_drop]
  omega

theorem getNtcValue_lastTen {sample : AdcSample} (h : sample.Takes) (past future : List Int) :
    (getNtcValue sample (past.reverse.take 10)).2 =
      ntcValueAt (past ++ ntcResistance sample.value :: future) (past.length + 1) := by
  obtain ⟨hfound, hdisabled, hmalloc⟩ := h
  unfold ntcValueAt
  by_cases hlen : past.length < 10
  · have hle : past.length + 1 ≤ 10 := hlen
    simp [getNtcValue, hfound, hdisabled, hlen, hle]
  · have hgt : ¬past.length + 1 ≤ 10 := by omega
    have hshift := shiftIn_lastTen past (ntcResistance sample.value)
    have hfull : ¬(past.reverse.take 10).length < 10 := by
      rw [List.length_take, List.length_reverse]
      omega
    rw [shiftIn, if_neg hfull] at hshift
    simp only [getNtcValue, hfound, hdisabled, hmalloc, Bool.not_true, Bool.false_eq_true, if_false,
      if_true, hfull, hgt, hshift, ← List.sum_eq_foldl]
    rw [take_drop_append_cons past future _ (Nat.le_of_not_lt hlen), List.take_reverse,
      List.sum_reverse]

-- ---------------------------------------------------------------------------
-- Any number of calls
-- ---------------------------------------------------------------------------

/-- The calls one after another, with the values they return. -/
def ntcRun (list : A) (turns : Nat) : List (NtcCall A) → NtcHeap A → Option (NtcHeap A × List Int)
  | [], heap => some (heap, [])
  | call :: rest, heap => do
    let (heap, value) ← getNtcValueAt list turns call heap
    let (heap, values) ← ntcRun list turns rest heap
    return (heap, value :: values)

/-- At every call `rt_malloc` has a block that is not in use. -/
def FreshCalls (list : A) (turns : Nat) : List (NtcCall A) → NtcHeap A → Prop
  | [], _ => True
  | call :: rest, heap => call.Fresh list heap ∧
    ∀ result ∈ getNtcValueAt list turns call heap, FreshCalls list turns rest result.1

instance (list : A) (turns : Nat) : (calls : List (NtcCall A)) → (heap : NtcHeap A) →
    Decidable (FreshCalls list turns calls heap)
  | [], _ => inferInstanceAs (Decidable True)
  | call :: rest, heap =>
    have (result : NtcHeap A × Int) := instDecidableFreshCalls list turns rest result.1
    inferInstanceAs (Decidable (_ ∧ ∀ result ∈ getNtcValueAt list turns call heap, _))

/-- The samples and blocks of the calls so far determine what the list holds, and
with those of the calls to come every value. -/
theorem NtcHeap.Holds.ntcRun {blocks : List A} {past : List Int}
    (h : NtcHeap.Holds heap list (blocks.reverse.take 10) (past.reverse.take 10))
    (hturns : 10 < turns) (htakes : ∀ call ∈ calls, call.adc.Takes)
    (hfresh : FreshCalls list turns calls heap) :
    ∃ heap' values, ntcRun list turns calls heap = some (heap', values) ∧
      heap'.Holds list ((blocks ++ calls.map NtcCall.block).reverse.take 10)
        ((past ++ calls.map NtcCall.res).reverse.take 10) ∧
      values = (List.range calls.length).map fun i =>
        ntcValueAt (past ++ calls.map NtcCall.res) (past.length + i + 1) := by
  induction calls generalizing heap blocks past with
  | nil => exact ⟨heap, [], rfl, by simpa using h, rfl⟩
  | cons call rest ih =>
    obtain ⟨hfirst, hrest⟩ := hfresh
    have htake := htakes call List.mem_cons_self
    have hlen : (past.reverse.take 10).length ≤ 10 := List.length_take_le ..
    obtain ⟨heap₁, hcall, hholds⟩ := h.getNtcValueAt hlen hturns hfirst
    rw [getNtcValue_samples, if_pos htake, if_pos htake, shiftIn_lastTen, shiftIn_lastTen] at hholds
    obtain ⟨heap₂, values, hrun, hholds₂, hvalues⟩ := ih hholds
      (fun call hc => htakes call (List.mem_cons_of_mem _ hc)) (hrest _ hcall)
    rw [List.append_assoc, List.append_assoc] at hholds₂
    refine ⟨heap₂, (getNtcValue call.adc (past.reverse.take 10)).2 :: values, ?_, hholds₂, ?_⟩
    · simp only [Hvac.ntcRun, hcall, hrun, Option.bind_eq_bind, Option.bind_some]
      rfl
    · rw [getNtcValue_lastTen htake past (rest.map NtcCall.res), hvalues, List.length_cons,
        List.range_succ_eq_map, List.map_cons, List.map_map]
      refine congrArg (_ :: ·) (List.map_congr_left fun i _ => ?_)
      have hindex : (past ++ [call.res]).length + i + 1 = past.length + (i + 1) + 1 := by
        simp
        omega
      rw [hindex, List.append_assoc]
      rfl

/-- From the empty list, with the converter there and memory to be had: the `k`-th
call returns what `ntcValueAt` says, and the list has the last ten samples,
newest first, in the blocks they came in. -/
theorem moving_average (list : A) (turns : Nat) (hturns : 10 < turns) (calls : List (NtcCall A))
    (htakes : ∀ call ∈ calls, call.adc.Takes) (heap : NtcHeap A) (hempty : heap.next list = none)
    (hfresh : FreshCalls list turns calls heap) :
    ∃ heap' values, ntcRun list turns calls heap = some (heap', values) ∧
      heap'.Holds list ((calls.map NtcCall.block).reverse.take 10)
        ((calls.map NtcCall.res).reverse.take 10) ∧
      Slist.len heap'.next turns list = some (min calls.length 10) ∧
      values = (List.range calls.length).map fun i =>
        ntcValueAt (calls.map NtcCall.res) (i + 1) := by
  have hstart : heap.Holds list (([] : List A).reverse.take 10) (([] : List Int).reverse.take 10) :=
    ⟨⟨hempty, List.pairwise_singleton _ _⟩, nofun, rfl⟩
  obtain ⟨heap', values, hrun, hholds, hvalues⟩ := hstart.ntcRun hturns htakes hfresh
  simp only [List.nil_append, List.length_nil, Nat.zero_add] at hholds hvalues
  refine ⟨heap', values, hrun, hholds, ?_, hvalues⟩
  have hcount : ((calls.map NtcCall.block).reverse.take 10).length = min calls.length 10 := by
    simp [Nat.min_comm]
  rw [hholds.isList.chain.len_eq (by omega), hcount]

def emptyHeap : NtcHeap Nat := { next := fun _ => none, data := fun _ => 0, live := [] }

/-- Eleven rising readings. -/
def elevenCalls : List (NtcCall Nat) :=
  (List.range 11).map fun i => ⟨⟨true, 2000 + BitVec.ofNat 32 i, true, true⟩, i + 1⟩

theorem moving_average_eleven :
    ∃ heap' values, ntcRun 0 11 elevenCalls emptyHeap = some (heap', values) ∧
      heap'.Holds 0 ((elevenCalls.map NtcCall.block).reverse.take 10)
        ((elevenCalls.map NtcCall.res).reverse.take 10) ∧
      Slist.len heap'.next 11 0 = some (min elevenCalls.length 10) ∧
      values = (List.range elevenCalls.length).map fun i =>
        ntcValueAt (elevenCalls.map NtcCall.res) (i + 1) :=
  moving_average 0 11 (by decide) elevenCalls (by decide) emptyHeap rfl (by decide +kernel)

end Hvac
