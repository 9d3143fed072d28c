import Plex86.Machine.Cpu

/-! The bootloader that runs in the guest before Linux: how it takes its command
line apart and fills in the page of parameters for the kernel. A character
string is a list, without the null character at its end. -/

namespace Plex86

/-- `strcmp` -/
def strcmp : List Char → List Char → Int
  | [], [] => 0
  | [], _ :: _ => -1
  | _ :: _, [] => 1
  | c1 :: s1, c2 :: s2 => if c1 < c2 then -1 else if c1 > c2 then 1 else strcmp s1 s2

namespace Bootloader

/-- Take a hexadecimal digit into account; `none` is `panic()`. -/
def hexDigit (val : Bit32u) (s : Char) : Option Bit32u :=
  if '0' ≤ s ∧ s ≤ '9' then some ((val <<< 4) ||| BitVec.ofNat 32 (s.toNat - '0'.toNat))
  else if 'a' ≤ s ∧ s ≤ 'f' then
    some ((val <<< 4) ||| BitVec.ofNat 32 (10 + (s.toNat - 'a'.toNat)))
  else if 'A' ≤ s ∧ s ≤ 'F' then
    some ((val <<< 4) ||| BitVec.ofNat 32 (10 + (s.toNat - 'A'.toNat)))
  else none -- Not a valid hexidecimal digit.

/-- Take a decimal digit into account. -/
def decimalDigit (val : Bit32u) (s : Char) : Option Bit32u :=
  if '0' ≤ s ∧ s ≤ '9' then some (val * 10 + BitVec.ofNat 32 (s.toNat - '0'.toNat)) else none

/-- Convert a decimal or hexidecimal string to an unsigned int. -/
def stringToUInt : List Char → Option Bit32u
  | ['0', 'x'] => none -- No hex digits follow?
  | '0' :: 'x' :: digits => digits.foldlM hexDigit 0
  | [] => none -- No digits?
  | digits => digits.foldlM decimalDigit 0

def argvMax : Nat := 64

/-- Eat leading whitespace. -/
def skipBlanks (ptr : List Char) : List Char := ptr.dropWhile (· = ' ')

/-- What follows an argument; the blank at its end is overwritten. -/
def afterArg (text : List Char) : List Char := (text.dropWhile (· ≠ ' ')).tail

private theorem afterArg_shorter {ptr : List Char} (some : skipBlanks ptr ≠ []) :
    (afterArg (skipBlanks ptr)).length < ptr.length := by
  have skipped : (skipBlanks ptr).length ≤ ptr.length := (List.dropWhile_sublist _).length_le
  have arg : ((skipBlanks ptr).dropWhile (· ≠ ' ')).length ≤ (skipBlanks ptr).length :=
    (List.dropWhile_sublist _).length_le
  have positive := List.length_pos_iff.mpr some
  rw [afterArg, List.length_tail]
  omega

/-- Convert from a parameter string into the arguments; `argc` were found before. -/
def splitArgs (argc : Nat) (ptr : List Char) : Option (List (List Char)) :=
  if skipBlanks ptr = [] then some [] -- No more args left.
  else if argvMax ≤ argc + 1 then none -- Overflow check.
  else
    (splitArgs (argc + 1) (afterArg (skipBlanks ptr))).map
      ((skipBlanks ptr).takeWhile (· ≠ ' ') :: ·)
termination_by ptr.length
decreasing_by exact afterArg_shorter ‹_›

/-- What the command line says. -/
structure Options where
  nMegs : Bit32u := 0
  plex86MemSize : Bit32u := 0
  /-- 0 signals no initrd. -/
  initrdImageLoadAddr : Bit32u := 0
  initrdImageSize : Bit32u := 0
  initIO : Bool := false
deriving DecidableEq

/-- Process the arguments, from `argv[argi]` on. -/
def processArgs (options : Options) : List (List Char) → Option Options
  | [] => some options
  | arg :: rest =>
      if strcmp arg "-megs".toList = 0 then
        match rest with
        | nMegs :: rest => do
            let nMegs ← stringToUInt nMegs
            processArgs { options with nMegs, plex86MemSize := nMegs <<< 20 } rest
        | _ => none -- errorArgsUnderflow
      else if strcmp arg "-initrd-image".toList = 0 then
        match rest with
        | loadAddr :: size :: rest => do
            let initrdImageLoadAddr ← stringToUInt loadAddr
            if initrdImageLoadAddr = 0 then none -- errorUsage
            else
              let initrdImageSize ← stringToUInt size
              if initrdImageSize = 0 then none
              else processArgs { options with initrdImageLoadAddr, initrdImageSize } rest
        | _ => none -- errorArgsUnderflow
      else if strcmp arg "-init-io".toList = 0 then
        processArgs { options with initIO := true } rest
      else none -- errorArgUnrecognized

/-- `linuxSetupParams_t`, without the parts that stay zero. -/
structure LinuxSetupParams where
  origX : Bit8u := 0
  origY : Bit8u := 0
  extMemK : Bit16u := 0
  origVideoPage : Bit16u := 0
  origVideoMode : Bit8u := 0
  origVideoCols : Bit8u := 0
  origVideoEgaBx : Bit16u := 0
  origVideoLines : Bit8u := 0
  origVideoIsVGA : Bit8u := 0
  origVideoPoints : Bit16u := 0
  clMagic : Bit16u := 0
  clOffset : Bit16u := 0
  altMemK : Bit32u := 0
  ramdiskFlags : Bit16u := 0
  vgaMode : Bit16u := 0
  setupSignature : List Char := []
  headerFormatVersion : Bit16u := 0
  loaderType : Bit8u := 0
  loadflags : Bit8u := 0
  kernelStart : Bit32u := 0
  initrdStart : Bit32u := 0
  initrdSize : Bit32u := 0
deriving DecidableEq

def linuxKernelStart : Bit32u := 0x100000

def initLinuxSetupPage (options : Options) : LinuxSetupParams :=
  let memNMegs := options.plex86MemSize >>> 20
  -- Memory size (total mem - 1MB, in KB)
  let extMemK : Bit16u := ((memNMegs - 1) * 1024).setWidth 16
  { extMemK
    origVideoMode := 3
    origVideoCols := 80
    origVideoEgaBx := 3
    origVideoLines := 25
    origVideoIsVGA := 1
    origVideoPoints := 16
    clMagic := 0xa33f
    clOffset := 0x800
    altMemK := extMemK.setWidth 32
    vgaMode := 3
    setupSignature := "HdrS".toList
    headerFormatVersion := 0x0203
    loaderType := 1
    loadflags := 1
    kernelStart := linuxKernelStart
    initrdStart := options.initrdImageLoadAddr
    initrdSize := options.initrdImageSize }

/-- The setup page with which the kernel is entered; `none` is `panic()`. -/
def bootloaderMain (bootloaderCommandLine : List Char) : Option LinuxSetupParams := do
  let argv ← splitArgs 0 bootloaderCommandLine
  let options ← processArgs {} argv
  if options.nMegs = 0 then none -- errorUsage
  else return initLinuxSetupPage options

end Bootloader
end Plex86
