import Mathlib.Data.List.Basic

/-! The chips of the environment controller driver, and what each of them can do. -/
namespace BuffaloNas.It87

inductive Chips
  | it87 | it8712 | it8716 | it8718 | it8720 | it8721 | it8728 | it8732
  | it8771 | it8772 | it8781 | it8782 | it8783 | it8786 | it8790
  | it8792 | it8603 | it8607 | it8613 | it8620 | it8622 | it8628 | it8655 | it8665
  | it8686
  deriving DecidableEq

inductive Feature
  | adc12mv | newerAutopwm | oldAutopwm | fans16bit | tempOffset | tempPeci | tempOldPeci
  | fan16Config | fiveFans | vid | in7Internal | sixFans | adc10_9mv | avcc3 | fivePwm | sixPwm
  | pwmFreq2 | sixTemp | vin3_5v | fourFans | fourPwm | bankSel | scaling | fanctlOnoff | adc11mv
  deriving DecidableEq

structure It87Devices where
  features : List Feature
  numTempLimit : ℕ
  peciMask : BitVec 8
  oldPeciMask : BitVec 8

open Feature in
def it87Devices : Chips → It87Devices
  | .it87 => ⟨[oldAutopwm, fanctlOnoff], 3, 0, 0⟩
  | .it8712 => ⟨[oldAutopwm, vid, fanctlOnoff], 3, 0, 0⟩
  | .it8716 =>
    ⟨[fans16bit, tempOffset, vid, fan16Config, fiveFans, pwmFreq2, fanctlOnoff], 3, 0, 0⟩
  | .it8718 =>
    ⟨[fans16bit, tempOffset, vid, tempOldPeci, fan16Config, fiveFans, pwmFreq2, fanctlOnoff],
      3, 0, 0x4⟩
  | .it8720 =>
    ⟨[fans16bit, tempOffset, vid, tempOldPeci, fan16Config, fiveFans, pwmFreq2, fanctlOnoff],
      3, 0, 0x4⟩
  | .it8721 =>
    ⟨[newerAutopwm, adc12mv, fans16bit, tempOffset, tempOldPeci, tempPeci, fan16Config, fourFans,
      in7Internal, pwmFreq2, scaling, fanctlOnoff], 3, 0x05, 0x02⟩
  | .it8728 =>
    ⟨[newerAutopwm, adc12mv, fans16bit, tempOffset, tempPeci, fiveFans, in7Internal, pwmFreq2,
      scaling, fanctlOnoff], 3, 0x07, 0⟩
  | .it8732 =>
    ⟨[newerAutopwm, fans16bit, tempOffset, tempOldPeci, tempPeci, adc10_9mv, in7Internal, fourFans,
      fourPwm, fanctlOnoff], 3, 0x07, 0x02⟩
  | .it8771 =>
    ⟨[newerAutopwm, adc12mv, fans16bit, tempOffset, tempPeci, in7Internal, pwmFreq2, scaling,
      fanctlOnoff], 3, 0x07, 0⟩
  | .it8772 =>
    ⟨[newerAutopwm, adc12mv, fans16bit, tempOffset, tempPeci, in7Internal, pwmFreq2, scaling,
      fanctlOnoff], 3, 0x07, 0⟩
  | .it8781 =>
    ⟨[fans16bit, tempOffset, tempOldPeci, fan16Config, pwmFreq2, fanctlOnoff], 3, 0, 0x4⟩
  | .it8782 =>
    ⟨[fans16bit, tempOffset, tempOldPeci, fan16Config, pwmFreq2, fanctlOnoff], 3, 0, 0x4⟩
  | .it8783 =>
    ⟨[fans16bit, tempOffset, tempOldPeci, fan16Config, pwmFreq2, fanctlOnoff], 3, 0, 0x4⟩
  | .it8786 =>
    ⟨[newerAutopwm, adc12mv, fans16bit, tempOffset, tempPeci, in7Internal, pwmFreq2, fanctlOnoff],
      3, 0x07, 0⟩
  | .it8790 =>
    ⟨[newerAutopwm, adc10_9mv, scaling, fans16bit, tempOffset, tempPeci, in7Internal, pwmFreq2,
      fanctlOnoff], 3, 0x07, 0⟩
  | .it8792 =>
    ⟨[newerAutopwm, adc10_9mv, scaling, fans16bit, tempOffset, tempPeci, in7Internal, pwmFreq2,
      fanctlOnoff], 3, 0x07, 0⟩
  | .it8603 =>
    ⟨[newerAutopwm, adc12mv, fans16bit, tempOffset, tempPeci, in7Internal, avcc3, pwmFreq2,
      scaling], 3, 0x07, 0⟩
  | .it8607 =>
    ⟨[newerAutopwm, adc12mv, fans16bit, tempOffset, tempPeci, in7Internal, avcc3, pwmFreq2,
      scaling, fanctlOnoff], 3, 0x07, 0⟩
  | .it8613 =>
    ⟨[newerAutopwm, adc11mv, fans16bit, tempOffset, tempPeci, fiveFans, fivePwm, in7Internal,
      pwmFreq2, avcc3, vin3_5v, scaling], 3, 0x07, 0⟩
  | .it8620 =>
    ⟨[newerAutopwm, adc12mv, fans16bit, tempOffset, tempPeci, sixFans, in7Internal, sixPwm,
      pwmFreq2, sixTemp, vin3_5v, scaling, fanctlOnoff], 3, 0x07, 0⟩
  | .it8622 =>
    ⟨[newerAutopwm, adc12mv, fans16bit, tempOffset, tempPeci, fiveFans, fivePwm, in7Internal,
      pwmFreq2, avcc3, vin3_5v, scaling], 3, 0x07, 0⟩
  | .it8628 =>
    ⟨[newerAutopwm, adc12mv, fans16bit, tempOffset, tempPeci, sixFans, in7Internal, sixPwm,
      pwmFreq2, sixTemp, scaling, avcc3, fanctlOnoff], 3, 0x07, 0⟩
  | .it8655 =>
    ⟨[newerAutopwm, fans16bit, tempOffset, avcc3, adc10_9mv, in7Internal, bankSel], 6, 0, 0⟩
  | .it8665 =>
    ⟨[newerAutopwm, fans16bit, tempOffset, avcc3, adc10_9mv, in7Internal, sixFans, sixPwm,
      bankSel], 6, 0, 0⟩
  | .it8686 =>
    ⟨[newerAutopwm, adc12mv, fans16bit, tempOffset, sixFans, in7Internal, sixPwm, pwmFreq2,
      sixTemp, bankSel, scaling, avcc3], 6, 0, 0⟩

namespace It87Devices

variable (data : It87Devices)

def has (f : Feature) : Bool := data.features.contains f

def hasFiveFans : Bool := data.has .fiveFans || data.has .sixFans

def hasFivePwm : Bool := data.has .fivePwm || data.has .sixPwm

def hasFourPwm : Bool := data.has .fourPwm || data.has .fivePwm || data.has .sixPwm

end It87Devices

end BuffaloNas.It87
