import Hvac.Types

/-!
# Local temperature

`Ntc.c`: the resistance of the sensor from one conversion, the moving average
over the last ten, and the table that turns a resistance into tenths of a
degree.
-/

namespace Hvac

/-- `NTC_Rtable`: the first entry is for -40 degrees; 257 entries, those not
written out are zero. -/
def ntcRtable (i : Nat) : U32 :=
  [203750, 192049, 181156, 171001, 161522, 152664, 144377, 136617, 129343, 122518,
   116110, 110088, 104425, 99096, 94078, 89350, 84892, 80688, 76720, 72973,
   69434, 66089, 62926, 59935, 57104, 54425, 51888, 49484, 47206, 45047,
   43000, 41057, 39214, 37465, 35804, 34226, 32727, 31303, 29949, 28661,
   27513, 26271, 25162, 24107, 23101, 22144, 21231, 20362, 19533, 18742,
   18016, 17269, 16583, 15928, 15302, 14704, 14134, 13588, 13067, 12568,
   12092, 11636, 11199, 10782, 10382, 10000, 9633, 9282, 8946, 8623,
   8314, 8018, 7734, 7461, 7199, 6948, 6707, 6476, 6254, 6040,
   5835, 5638, 5449, 5267, 5091, 4923, 4761, 4605, 4455, 4311,
   4168, 4038, 3909, 3785, 3665, 3550, 3439, 3332, 3229, 3129,
   3033, 2941, 2851, 2765, 2682, 2602, 2524, 2449, 2377, 2307,
   2240, 2175, 2112, 2051, 1992, 1935, 1880, 1827, 1776, 1726,
   1678].getD i 0

def res2TempSearch (res : U32) (i : U8) : Nat → U8
  | 0 => i
  | turns + 1 =>
    let j := 7 - turns
    if ntcRtable i.toNat ≥ res ∧ ntcRtable (i.toNat + 1) < res then i
    else if ntcRtable i.toNat < res then res2TempSearch res (i - (128 >>> j)) turns
    else res2TempSearch res (i + (128 >>> j)) turns

/-- `Res2Temp`. The products and quotients are unsigned, the result is kept in
an `s16`. -/
def res2Temp (res : U32) : Int :=
  let i := res2TempSearch res 128 8
  let above := ntcRtable i.toNat
  let below := ntcRtable (i.toNat + 1)
  let whole : U32 := BitVec.ofInt 32 (((i.toNat : Int) - 40) * 10)
  let temp : S16 := (whole + (above - res) * 10 / (above - below)).setWidth 16
  if res > ntcRtable 0 then valueNull
  else if temp.toInt ≥ 800 then valueNull
  else temp.toInt

/-- What the converter and the allocator do during one `GetNtcValue` call. -/
structure AdcSample where
  found : Bool
  value : U32
  disabled : Bool
  malloc : Bool
  deriving DecidableEq, Repr

def referVoltage : U32 := 3300
def convertBits : U32 := 4096

def ntcResistance (value : U32) : Int :=
  let vol := value * referVoltage / convertBits
  (10000 * vol / (referVoltage - vol)).toInt

/-- `GetNtcValue`: the samples after the call, newest first, and the value
returned. Without the device the value is `RT_ERROR`, which is 1. -/
def getNtcValue (adc : AdcSample) (list : List Int) : List Int × Int :=
  if !adc.found then (list, 1)
  else if !adc.disabled then (list, valueNull)
  else
    let res := ntcResistance adc.value
    if list.length < 10 then
      (if adc.malloc then res :: list else list, valueNull)
    else
      let list := if adc.malloc then res :: list.dropLast else list
      (list, res2Temp (BitVec.ofInt 32 ((list.foldl (· + ·) 0).tdiv 10)))

end Hvac
