import Mathlib.Tactic.IntervalCases
import Mathlib.Data.List.TakeWhile
import Plex86.Boot.Bootloader
import Plex86.Logic.Numerals

namespace Plex86

open Logic Bootloader

/-- An initial ramdisk in the guest's memory. -/
structure Ramdisk where
  loadAddr : Bit32u
  size : Bit32u
  somewhere : loadAddr ≠ 0
  nonempty : size ≠ 0

/-- `initrdImageLoadAddr` -/
def initrdImageLoadAddr (ramdisk : Option Ramdisk) : Bit32u :=
  (ramdisk.map Ramdisk.loadAddr).getD 0

/-- `initrdImageSize` -/
def initrdImageSize (ramdisk : Option Ramdisk) : Bit32u := (ramdisk.map Ramdisk.size).getD 0

/-- `%u` -/
def printDecimal (number : Bit32u) : List Char := Nat.toDigits 10 number.toNat

/-- `0x%x` -/
def printHex (number : Bit32u) : List Char := '0' :: 'x' :: Nat.toDigits 16 number.toNat

/-- The command line that `main` writes at `BootloaderCLAddr`. -/
def bootloaderArgs (nMegs loadAddr size : Bit32u) : List Char :=
  "-megs".toList ++ ' ' :: (printDecimal nMegs ++ ' ' :: ("-initrd-image".toList ++
    ' ' :: (printHex loadAddr ++ ' ' :: printHex size)))

namespace Bootloader

private theorem strcmp_self (s : List Char) : strcmp s s = 0 := by
  induction s with
  | nil => rfl
  | cons c rest inductionHypothesis => simpa [strcmp] using inductionHypothesis

/-- A word, without a blank in it. -/
structure Word (word : List Char) : Prop where
  nonempty : word ≠ []
  noBlank : ∀ char ∈ word, char ≠ ' '

theorem Word.skipBlanks {word : List Char} (good : Word word) (rest : List Char) :
    skipBlanks (word ++ rest) = word ++ rest := by
  cases word with
  | nil => exact absurd rfl good.nonempty
  | cons char others =>
      have visible : char ≠ ' ' := good.noBlank char List.mem_cons_self
      simp [Bootloader.skipBlanks, visible]

/-- A word that is followed by a blank is an argument. -/
theorem splitArgs_word {word : List Char} (good : Word word) (rest : List Char) {argc : Nat}
    (room : argc + 1 < argvMax) :
    splitArgs argc (word ++ ' ' :: rest) = (splitArgs (argc + 1) rest).map (word :: ·) := by
  have taken : (word ++ ' ' :: rest).takeWhile (· ≠ ' ') = word := by
    rw [List.takeWhile_append_of_pos (by simpa using good.noBlank)]
    simp
  have after : afterArg (word ++ ' ' :: rest) = rest := by
    rw [afterArg, List.dropWhile_append_of_pos (by simpa using good.noBlank)]
    simp
  rw [splitArgs, good.skipBlanks, taken, after, if_neg (by simp), if_neg (by omega)]

/-- A word at the end is the last argument. -/
theorem splitArgs_last {word : List Char} (good : Word word) {argc : Nat}
    (room : argc + 1 < argvMax) : splitArgs argc word = some [word] := by
  have whole := good.skipBlanks []
  rw [List.append_nil] at whole
  have taken : word.takeWhile (· ≠ ' ') = word :=
    List.takeWhile_eq_self_iff.mpr (by simpa using good.noBlank)
  have after : afterArg word = [] := by
    have nothing : word.dropWhile (· ≠ ' ') = [] :=
      List.dropWhile_eq_nil_iff.mpr (by simpa using good.noBlank)
    rw [afterArg, nothing]
    rfl
  rw [splitArgs, whole, taken, after, if_neg good.nonempty, if_neg (by omega), splitArgs]
  rfl

/-- The characters of numerals are no blanks. -/
theorem digits_noBlank {base : Nat} (large : 1 < base) (small : base ≤ 16) (number : Nat) :
    ∀ char ∈ Nat.toDigits base number, char ≠ ' ' := by
  have digits : ∀ digit < 16, Nat.digitChar digit ≠ ' ' := by decide
  exact toDigits_forall large (fun digit less => digits digit (by omega)) number

private theorem printDecimal_word (number : Bit32u) : Word (printDecimal number) where
  nonempty := Nat.toDigits_ne_nil
  noBlank := digits_noBlank (by decide) (by decide) _

private theorem printHex_word (number : Bit32u) : Word (printHex number) where
  nonempty := by simp [printHex]
  noBlank := by
    have digits := digits_noBlank (by decide : 1 < 16) (by decide) number.toNat
    simpa [printHex] using digits

private theorem megs_word : Word "-megs".toList where
  nonempty := by decide
  noBlank := by simp

private theorem initrdImage_word : Word "-initrd-image".toList where
  nonempty := by decide
  noBlank := by simp

/-- The command line comes apart into what was put into it. -/
theorem splitArgs_bootloaderArgs (nMegs loadAddr size : Bit32u) :
    splitArgs 0 (bootloaderArgs nMegs loadAddr size) =
      some ["-megs".toList, printDecimal nMegs, "-initrd-image".toList, printHex loadAddr,
        printHex size] := by
  have first := splitArgs_word megs_word (printDecimal nMegs ++ ' ' :: ("-initrd-image".toList ++
    ' ' :: (printHex loadAddr ++ ' ' :: printHex size))) (by decide : 0 + 1 < argvMax)
  have second := splitArgs_word (printDecimal_word nMegs) ("-initrd-image".toList ++
    ' ' :: (printHex loadAddr ++ ' ' :: printHex size)) (by decide : 1 + 1 < argvMax)
  have third := splitArgs_word initrdImage_word (printHex loadAddr ++ ' ' :: printHex size)
    (by decide : 2 + 1 < argvMax)
  have fourth := splitArgs_word (printHex_word loadAddr) (printHex size)
    (by decide : 3 + 1 < argvMax)
  have last := splitArgs_last (printHex_word size) (by decide : 4 + 1 < argvMax)
  rw [last] at fourth
  rw [fourth] at third
  rw [third] at second
  rw [second] at first
  exact first

/-- Ten times a number and a digit, as the parser computes it. -/
theorem decimalDigit_digitChar (number digit : Nat) (less : digit < 10) :
    decimalDigit (BitVec.ofNat 32 number) digit.digitChar =
      some (BitVec.ofNat 32 (10 * number + digit)) := by
  have chars : ∀ digit < 10, ('0' ≤ Nat.digitChar digit ∧ Nat.digitChar digit ≤ '9') ∧
      (Nat.digitChar digit).toNat - '0'.toNat = digit := by decide
  obtain ⟨range, value⟩ := chars digit less
  rw [decimalDigit, if_pos range, value]
  congr 1
  apply BitVec.eq_of_toNat_eq
  have ten : (10 : Bit32u).toNat = 10 := rfl
  simp only [BitVec.toNat_add, BitVec.toNat_mul, BitVec.toNat_ofNat, ten]
  omega

/-- Sixteen times a number and a digit, as the parser computes it. -/
theorem hexDigit_digitChar (number digit : Nat) (less : digit < 16) :
    hexDigit (BitVec.ofNat 32 number) digit.digitChar =
      some (BitVec.ofNat 32 (16 * number + digit)) := by
  have chars : ∀ digit < 16, ∀ val, hexDigit val (Nat.digitChar digit) =
      some ((val <<< 4) ||| BitVec.ofNat 32 digit) := by
    intro digit less val
    interval_cases digit <;> rfl
  have joined : 16 * number + digit = number <<< 4 ||| digit := by
    rw [← Nat.shiftLeft_add_eq_or_of_lt (show digit < 2 ^ 4 from less), Nat.shiftLeft_eq]
    omega
  rw [chars digit less, joined]
  congr 1
  apply BitVec.eq_of_toNat_eq
  simp [BitVec.toNat_shiftLeft, Nat.shiftLeft_eq, Nat.mod_mul_mod]

private theorem stringToUInt_decimal {text : List Char} (some : text ≠ []) (plain : 'x' ∉ text) :
    stringToUInt text = text.foldlM decimalDigit 0 := by
  unfold stringToUInt
  split
  · simp at plain
  · simp at plain
  · exact absurd rfl some
  · rfl

/-- A decimal number is read as it was printed. -/
theorem stringToUInt_printDecimal (number : Bit32u) :
    stringToUInt (printDecimal number) = some number := by
  have digits : ∀ digit < 10, Nat.digitChar digit ≠ 'x' := by decide
  have plain : ∀ char ∈ printDecimal number, char ≠ 'x' :=
    toDigits_forall (by decide) digits number.toNat
  have read : (printDecimal number).foldlM decimalDigit (BitVec.ofNat 32 0) =
      some (BitVec.ofNat 32 number.toNat) :=
    foldlM_toDigits (by decide) decimalDigit_digitChar number.toNat
  rw [BitVec.ofNat_toNat, BitVec.setWidth_eq] at read
  rw [stringToUInt_decimal (printDecimal_word number).nonempty fun member => plain 'x' member rfl]
  exact read

/-- A hexadecimal number is read as it was printed. -/
theorem stringToUInt_printHex (number : Bit32u) : stringToUInt (printHex number) = some number := by
  have read : (Nat.toDigits 16 number.toNat).foldlM hexDigit (BitVec.ofNat 32 0) =
      some (BitVec.ofNat 32 number.toNat) :=
    foldlM_toDigits (by decide) hexDigit_digitChar number.toNat
  rw [BitVec.ofNat_toNat, BitVec.setWidth_eq] at read
  have more : Nat.toDigits 16 number.toNat ≠ [] := Nat.toDigits_ne_nil
  rw [printHex]
  cases digits : Nat.toDigits 16 number.toNat with
  | nil => exact absurd digits more
  | cons digit rest =>
      rw [digits] at read
      exact read

/-- What the bootloader makes of the command line. -/
theorem bootloaderMain_bootloaderArgs (nMegs loadAddr size : Bit32u) :
    bootloaderMain (bootloaderArgs nMegs loadAddr size) =
      if loadAddr = 0 ∨ size = 0 ∨ nMegs = 0 then none
      else some (initLinuxSetupPage
        { nMegs, plex86MemSize := nMegs <<< 20
          initrdImageLoadAddr := loadAddr, initrdImageSize := size }) := by
  have megs : strcmp "-megs".toList "-megs".toList = 0 := strcmp_self _
  have notMegs : strcmp "-initrd-image".toList "-megs".toList ≠ 0 := by decide
  have initrd : strcmp "-initrd-image".toList "-initrd-image".toList = 0 := strcmp_self _
  simp only [bootloaderMain, splitArgs_bootloaderArgs, Option.bind_eq_bind, Option.bind_some,
    processArgs, megs, notMegs, initrd, if_true, if_false, stringToUInt_printDecimal,
    stringToUInt_printHex]
  by_cases nowhere : loadAddr = 0
  · rw [if_pos nowhere, if_pos (.inl nowhere)]
    rfl
  by_cases empty : size = 0
  · rw [if_neg nowhere, if_pos empty, if_pos (.inr (.inl empty))]
    rfl
  rw [if_neg nowhere, if_neg empty, Option.bind_some]
  by_cases noMemory : nMegs = 0
  · rw [if_pos noMemory, if_pos (.inr (.inr noMemory))]
  · rw [if_neg noMemory, if_neg (not_or.mpr ⟨nowhere, not_or.mpr ⟨empty, noMemory⟩⟩)]
    rfl

/-- How much memory the kernel is told about, in 16 bits. -/
theorem initLinuxSetupPage_altMemK (nMegs loadAddr size : Bit32u) (positive : 0 < nMegs.toNat)
    (small : nMegs.toNat < 4096) :
    (initLinuxSetupPage
      { nMegs, plex86MemSize := nMegs <<< 20
        initrdImageLoadAddr := loadAddr, initrdImageSize := size }).altMemK.toNat =
      (nMegs.toNat - 1) * 1024 % 65536 := by
  have one : (1 : Bit32u).toNat = 1 := rfl
  have kilo : (1024 : Bit32u).toNat = 1024 := rfl
  have back : (nMegs <<< 20 >>> 20).toNat = nMegs.toNat := by
    rw [BitVec.toNat_ushiftRight, BitVec.toNat_shiftLeft, Nat.shiftRight_eq_div_pow,
      Nat.shiftLeft_eq]
    omega
  simp only [initLinuxSetupPage, BitVec.toNat_setWidth, BitVec.toNat_mul, BitVec.toNat_sub, back,
    one, kilo]
  omega

end Bootloader

/-- The bootloader gets along with its command line, and tells the kernel about
the memory and the ramdisk of the machine. -/
def HandsOver (nMegs : Bit32u) (ramdisk : Option Ramdisk) : Prop :=
  ∃ params, bootloaderMain
      (bootloaderArgs nMegs (initrdImageLoadAddr ramdisk) (initrdImageSize ramdisk)) = some params ∧
    params.altMemK.toNat = (nMegs.toNat - 1) * 1024 ∧
      params.initrdStart = initrdImageLoadAddr ramdisk ∧
        params.initrdSize = initrdImageSize ramdisk

/-- What main writes is handed over to the kernel exactly when there is a ramdisk
and the memory above the first megabyte fits in 16 bits. -/
theorem bootParameters_handedOver {nMegs : Bit32u} (ramdisk : Option Ramdisk)
    (positive : 0 < nMegs.toNat) (small : nMegs.toNat < 4096) :
    HandsOver nMegs ramdisk ↔ ramdisk.isSome ∧ nMegs.toNat ≤ 64 := by
  cases ramdisk with
  | none =>
      refine iff_of_false ?_ (by simp)
      rintro ⟨params, started, _⟩
      rw [bootloaderMain_bootloaderArgs, if_pos (.inl rfl)] at started
      cases started
  | some ramdisk =>
      have memory : nMegs ≠ 0 := by
        rintro rfl
        exact absurd positive (by decide)
      have parsed := bootloaderMain_bootloaderArgs nMegs ramdisk.loadAddr ramdisk.size
      rw [if_neg (not_or.mpr ⟨ramdisk.somewhere, not_or.mpr ⟨ramdisk.nonempty, memory⟩⟩)] at parsed
      have told := initLinuxSetupPage_altMemK nMegs ramdisk.loadAddr ramdisk.size positive small
      constructor
      · rintro ⟨params, started, enough, _⟩
        have same := Option.some.inj (parsed.symm.trans started)
        rw [← same, told] at enough
        refine ⟨rfl, ?_⟩
        omega
      · rintro ⟨_, fits⟩
        refine ⟨_, parsed, ?_, rfl, rfl⟩
        rw [told]
        omega

theorem bootParameters_handedOver_sample :
    HandsOver 32 (some ⟨0x1000000, 0x40000, by decide, by decide⟩) ↔
      (some (⟨0x1000000, 0x40000, by decide, by decide⟩ : Ramdisk)).isSome ∧
        (32 : Bit32u).toNat ≤ 64 :=
  bootParameters_handedOver _ (by decide) (by decide)

/-- Without a ramdisk the bootloader gives up, and of 128 megabytes the kernel is
told about less than 64. -/
theorem bootParameters_notHandedOver :
    ¬ HandsOver 32 none ∧
      ¬ HandsOver 128 (some ⟨0x1000000, 0x40000, by decide, by decide⟩) := by
  constructor
  · rintro ⟨params, started, _⟩
    rw [bootloaderMain_bootloaderArgs, if_pos (.inl rfl)] at started
    cases started
  · rintro ⟨params, started, enough, _⟩
    rw [bootloaderMain_bootloaderArgs, if_neg (by decide)] at started
    rw [← Option.some.inj started, initLinuxSetupPage_altMemK _ _ _ (by decide) (by decide)] at enough
    exact absurd enough (by decide)

end Plex86
