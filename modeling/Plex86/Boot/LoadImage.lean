import Plex86.Machine.Cpu

/-! The images that are loaded into guest memory before the guest is started:
the kernel, a ramdisk if there is one, and the bootloader. -/

namespace Plex86

/-- An image file: its size, and what each `read()` of it returns for at most so
many bytes. -/
structure ImageFile where
  size : Bit32u
  read : Nat → Nat → Int
  read_le : ∀ call size, read call size ≤ size

namespace ImageFile

/-- No read fails, though it may return less than was asked for. -/
def Readable (file : ImageFile) : Prop := ∀ call size, 0 < size → 0 < file.read call size

/-- The file's size is such that it is read. -/
def Fits (file : ImageFile) (sizeMax : Bit32u) : Prop := file.size ≠ 0 ∧ file.size ≤ sizeMax

/-- A file of which each `read()` returns all that it was asked for. -/
def whole (size : Bit32u) : ImageFile where
  size := size
  read _ size := size
  read_le _ _ := Int.le_refl _

private theorem whole_readable (size : Bit32u) : (whole size).Readable :=
  fun _ _ some => Int.natCast_pos.mpr some

end ImageFile

/-- Bytes stored by `read()`, counted from the start of guest memory. -/
structure ImageStore where
  offset : Nat
  length : Nat
deriving DecidableEq

/-- The stores of a loading, and the size it returns, which is 0 where it failed. -/
structure Loading where
  stores : List ImageStore := []
  size : Bit32u := 0

/-- The loop of `loadImage`, with `left` bytes to be read: what it stores, and
whether it comes to its end. Each round reads a byte or more, so that there are no
more rounds than bytes. -/
def loadLoop (file : ImageFile) : Nat → Nat → Nat → Nat → List ImageStore × Bool
  | 0, _, left, _ => ([], left = 0)
  | rounds + 1, call, left, location =>
      if left = 0 then ([], true)
      else
        let ret := file.read call left
        if ret ≤ 0 then ([], false)
        else
          let (stores, done) :=
            loadLoop file rounds (call + 1) (left - ret.toNat) (location + ret.toNat)
          (⟨location, ret.toNat⟩ :: stores, done)

/-- `none` is a file that cannot be opened. -/
def loadImage (file : Option ImageFile) (imagePhyAddr sizeMax : Bit32u) : Loading :=
  match file with
  | none => {}
  | some file =>
      if sizeMax < file.size then {}
      else
        let (stores, done) := loadLoop file file.size.toNat 0 file.size.toNat imagePhyAddr.toNat
        { stores, size := if done then file.size else 0 }

/-- What the command line says of memory and the ramdisk. -/
structure LoadOptions where
  nMegs : Bit32u
  /-- 0 where there is no ramdisk. -/
  initrdImageLoadAddr : Bit32u := 0

namespace LoadOptions

/-- The checks that `main` makes of them. -/
def Accepted (options : LoadOptions) : Prop := options.nMegs ≠ 0 ∧ options.nMegs &&& 3 = 0

instance (options : LoadOptions) : Decidable options.Accepted :=
  inferInstanceAs (Decidable (_ ∧ _))

/-- `plex86MemSize` -/
def memSize (options : LoadOptions) : Bit32u := options.nMegs <<< 20

end LoadOptions

structure ImageFiles where
  linux : Option ImageFile
  initrd : Option ImageFile
  bootloader : Option ImageFile

def linuxImageLoadAddr : Bit32u := 0x100000

/-- The bootloader needs to fit before the VGA memory area. -/
def bootloaderLoadAddr : Bit32u := 0x90000

def bootloaderSizeMax : Bit32u := 0x10000

/-- What is loaded after the kernel. -/
def loadRest (options : LoadOptions) (files : ImageFiles) : List ImageStore :=
  let bootloader := loadImage files.bootloader bootloaderLoadAddr bootloaderSizeMax
  if options.initrdImageLoadAddr = 0 then bootloader.stores
  else
    let initrd := loadImage files.initrd options.initrdImageLoadAddr
      (options.memSize - options.initrdImageLoadAddr)
    if initrd.size = 0 then initrd.stores else initrd.stores ++ bootloader.stores

/-- The part of `main` that loads the images, and gives up at the first that fails. -/
def loadImages (options : LoadOptions) (files : ImageFiles) : List ImageStore :=
  let linux := loadImage files.linux linuxImageLoadAddr (options.memSize - linuxImageLoadAddr)
  if linux.size = 0 then linux.stores else linux.stores ++ loadRest options files

/-- Every byte is stored inside guest memory. -/
def StoresInside (memSize : Bit32u) (stores : List ImageStore) : Prop :=
  ∀ store ∈ stores, store.offset + store.length ≤ memSize.toNat

instance (memSize : Bit32u) (stores : List ImageStore) : Decidable (StoresInside memSize stores) :=
  inferInstanceAs (Decidable (∀ store ∈ stores, _))

private theorem loadLoop_inside (file : ImageFile) (rounds call left location : Nat) :
    ∀ store ∈ (loadLoop file rounds call left location).1,
      location ≤ store.offset ∧ store.offset + store.length ≤ location + left := by
  induction rounds generalizing call left location with
  | zero => simp [loadLoop]
  | succ rounds inductionHypothesis =>
      intro store member
      rw [loadLoop] at member
      split at member
      · simp at member
      dsimp only at member
      split at member
      · simp at member
      · have bound := file.read_le call left
        rcases List.mem_cons.mp member with rfl | later
        · dsimp only
          omega
        · have inside := inductionHypothesis _ _ _ store later
          omega

private theorem loadLoop_done {file : ImageFile} (readable : file.Readable) {rounds : Nat}
    (call : Nat) {left : Nat} (location : Nat) (enough : left ≤ rounds) :
    (loadLoop file rounds call left location).2 = true := by
  induction rounds generalizing call left location with
  | zero => simp [loadLoop, Nat.le_zero.mp enough]
  | succ rounds inductionHypothesis =>
      rw [loadLoop]
      split
      · rfl
      · next some =>
        have positive := readable call left (Nat.pos_of_ne_zero some)
        have bound := file.read_le call left
        dsimp only
        rw [if_neg (by omega)]
        exact inductionHypothesis _ _ (by omega)

/-- The first read stores at the very place that the image is loaded to. -/
theorem loadLoop_first {file : ImageFile} (readable : file.Readable) {rounds left : Nat}
    (call location : Nat) (some : 0 < left) (enough : left ≤ rounds) :
    ∃ store ∈ (loadLoop file rounds call left location).1,
      store.offset = location ∧ 0 < store.length := by
  cases rounds with
  | zero => omega
  | succ rounds =>
      have positive := readable call left some
      rw [loadLoop, if_neg (by omega)]
      dsimp only
      rw [if_neg (by omega)]
      exact ⟨_, List.mem_cons_self, rfl, by dsimp only; omega⟩

/-- The file is there, and of a size that is read. -/
def ImageLoads (file : Option ImageFile) (sizeMax : Bit32u) : Prop := ∃ image ∈ file, image.Fits sizeMax

section Loaded

variable {file : Option ImageFile} {imagePhyAddr sizeMax : Bit32u}

private theorem loadImage_refused (not : ¬ ImageLoads file sizeMax) :
    loadImage file imagePhyAddr sizeMax = ⟨[], 0⟩ := by
  cases file with
  | none => rfl
  | some file =>
      rw [loadImage]
      split
      · rfl
      · next fits =>
        have empty : file.size = 0 := by
          by_contra some
          exact not ⟨file, rfl, some, BitVec.not_lt.mp fits⟩
        simp [empty, loadLoop]

variable (imagePhyAddr) in
private theorem loadImage_loaded (readable : ∀ image ∈ file, image.Readable)
    (loads : ImageLoads file sizeMax) :
    (loadImage file imagePhyAddr sizeMax).size ≠ 0 ∧
      ∃ store ∈ (loadImage file imagePhyAddr sizeMax).stores,
        store.offset = imagePhyAddr.toNat ∧ 0 < store.length := by
  obtain ⟨image, isFile, some, fits⟩ := loads
  obtain rfl : file = .some image := isFile
  have all := loadLoop_done (readable image rfl) 0 imagePhyAddr.toNat (Nat.le_refl image.size.toNat)
  have first := loadLoop_first (readable image rfl) 0 imagePhyAddr.toNat
    (Nat.pos_of_ne_zero fun zero => some (BitVec.eq_of_toNat_eq zero)) (Nat.le_refl image.size.toNat)
  rw [loadImage, if_neg (BitVec.not_lt.mpr fits)]
  dsimp only
  rw [if_pos all]
  exact ⟨some, first⟩

private theorem loadImage_inside :
    ∀ store ∈ (loadImage file imagePhyAddr sizeMax).stores,
      store.offset + store.length ≤ imagePhyAddr.toNat + sizeMax.toNat := by
  intro store member
  cases file with
  | none => simp [loadImage] at member
  | some file =>
      rw [loadImage] at member
      split at member
      · simp at member
      · next fits =>
        have inside := loadLoop_inside file _ _ _ _ store member
        have bound : file.size.toNat ≤ sizeMax.toNat := BitVec.le_def.mp (BitVec.not_lt.mp fits)
        omega

end Loaded

theorem StoresInside.append {memSize : Bit32u} {first rest : List ImageStore} :
    StoresInside memSize (first ++ rest) ↔ StoresInside memSize first ∧ StoresInside memSize rest :=
  List.forall_mem_append

namespace LoadOptions

variable (options : LoadOptions) (files : ImageFiles)

/-- The images are loaded to addresses in memory, so far as there is an image to be
loaded there. -/
def LoadsInMemory : Prop :=
  ImageLoads files.linux (options.memSize - linuxImageLoadAddr) →
    options.memSize ≠ 0 ∧
      (options.initrdImageLoadAddr ≤ options.memSize ∨
        ¬ ImageLoads files.initrd (options.memSize - options.initrdImageLoadAddr))

variable {options files}

/-- Memory is a multiple of 4 megabytes. -/
theorem Accepted.memSize_large (accepted : options.Accepted) (some : options.memSize ≠ 0) :
    0x400000 ≤ options.memSize.toNat := by
  have four : options.nMegs.toNat % 4 = 0 := by
    have same := congrArg BitVec.toNat accepted.2
    rw [BitVec.toNat_and] at same
    exact (Nat.and_two_pow_sub_one_eq_mod _ 2).symm.trans same
  have size : options.memSize.toNat = options.nMegs.toNat * 2 ^ 20 % 2 ^ 32 := by
    rw [memSize, BitVec.toNat_shiftLeft, Nat.shiftLeft_eq]
  have positive : options.memSize.toNat ≠ 0 := fun zero => some (BitVec.eq_of_toNat_eq zero)
  omega

/-- An image whose address is in memory is loaded into memory. -/
theorem loadImage_storesInside {file : Option ImageFile} {imagePhyAddr : Bit32u}
    (inside : imagePhyAddr ≤ options.memSize) :
    StoresInside options.memSize
      (loadImage file imagePhyAddr (options.memSize - imagePhyAddr)).stores := by
  intro store member
  have bound := loadImage_inside store member
  rw [BitVec.toNat_sub_of_le inside] at bound
  have := BitVec.le_def.mp inside
  omega

/-- An image whose address is past the end of memory, and which is of a size that is
read, is not. -/
theorem loadImage_not_storesInside {file : Option ImageFile} {imagePhyAddr sizeMax : Bit32u}
    (readable : ∀ image ∈ file, image.Readable) (loads : ImageLoads file sizeMax)
    (outside : options.memSize ≤ imagePhyAddr) :
    ¬ StoresInside options.memSize (loadImage file imagePhyAddr sizeMax).stores := by
  intro inside
  obtain ⟨-, store, member, first, positive⟩ :=
    loadImage_loaded imagePhyAddr readable loads
  have bound := inside store member
  have := BitVec.le_def.mp outside
  omega

private theorem loadRest_storesInside (accepted : options.Accepted) (some : options.memSize ≠ 0)
    (readable : ∀ image ∈ files.initrd, image.Readable) :
    StoresInside options.memSize (loadRest options files) ↔
      options.initrdImageLoadAddr ≤ options.memSize ∨
        ¬ ImageLoads files.initrd (options.memSize - options.initrdImageLoadAddr) := by
  have bootloader : StoresInside options.memSize
      (loadImage files.bootloader bootloaderLoadAddr bootloaderSizeMax).stores := by
    intro store member
    have bound := loadImage_inside store member
    have large := accepted.memSize_large some
    have last : bootloaderLoadAddr.toNat + bootloaderSizeMax.toNat = 0xA0000 := rfl
    omega
  rw [loadRest]
  dsimp only
  split
  · next none =>
    exact iff_of_true bootloader (.inl (BitVec.le_def.mpr (by simp [none])))
  constructor
  · intro inside
    by_contra neither
    rw [not_or, not_not] at neither
    obtain ⟨outside, loads⟩ := neither
    have past : options.memSize ≤ options.initrdImageLoadAddr :=
      BitVec.le_of_lt (BitVec.not_le.mp outside)
    apply loadImage_not_storesInside readable loads past
    split at inside
    · exact inside
    · exact (StoresInside.append.mp inside).1
  · rintro (inside | not)
    · split
      · exact loadImage_storesInside inside
      · exact StoresInside.append.mpr ⟨loadImage_storesInside inside, bootloader⟩
    · rw [loadImage_refused not]
      simp [StoresInside]

/-- The bytes of the images are stored inside memory exactly where the addresses that
they are loaded to lie in it. -/
theorem loadImages_inside_iff (accepted : options.Accepted)
    (linuxReadable : ∀ image ∈ files.linux, image.Readable)
    (initrdReadable : ∀ image ∈ files.initrd, image.Readable) :
    StoresInside options.memSize (loadImages options files) ↔
      options.LoadsInMemory files := by
  rw [loadImages, LoadsInMemory]
  by_cases loads : ImageLoads files.linux (options.memSize - linuxImageLoadAddr)
  · obtain ⟨large, -⟩ := loadImage_loaded linuxImageLoadAddr linuxReadable loads
    rw [if_neg large, StoresInside.append, forall_prop_of_true loads]
    by_cases empty : options.memSize = 0
    · have outside : ¬ StoresInside options.memSize
          (loadImage files.linux linuxImageLoadAddr (options.memSize - linuxImageLoadAddr)).stores :=
        loadImage_not_storesInside linuxReadable loads (BitVec.le_def.mpr (by simp [empty]))
      exact iff_of_false (fun inside => outside inside.1) (fun inside => inside.1 empty)
    · have inside : linuxImageLoadAddr ≤ options.memSize :=
        BitVec.le_def.mpr (Nat.le_trans (by decide) (accepted.memSize_large empty))
      rw [loadRest_storesInside accepted empty initrdReadable]
      exact and_congr (iff_of_true (loadImage_storesInside inside) empty) Iff.rfl
  · rw [loadImage_refused loads, forall_prop_of_false loads]
    simp [StoresInside]

/-- A kernel, a ramdisk and a bootloader, each of a size that is read. -/
def threeFiles : ImageFiles where
  linux := some (.whole 0x180000)
  initrd := some (.whole 0x4000)
  bootloader := some (.whole 0x2000)

def withRamdisk : LoadOptions := { nMegs := 32, initrdImageLoadAddr := 0x1000000 }

theorem loadImages_inside_iff_sample :
    StoresInside withRamdisk.memSize (loadImages withRamdisk threeFiles) ↔
      withRamdisk.LoadsInMemory threeFiles :=
  loadImages_inside_iff (by decide)
    (by rintro _ ⟨⟩; exact ImageFile.whole_readable _)
    (by rintro _ ⟨⟩; exact ImageFile.whole_readable _)

/-- Of 32 megabytes a ramdisk is loaded to 64 megabytes: the check of the address
only prints that it is beyond memory. -/
theorem initrd_beyond_memory :
    let options : LoadOptions := { nMegs := 32, initrdImageLoadAddr := 0x4000000 }
    options.Accepted ∧ (∀ image ∈ threeFiles.linux, image.Readable) ∧
      (∀ image ∈ threeFiles.initrd, image.Readable) ∧
      ¬ StoresInside options.memSize (loadImages options threeFiles) := by
  intro options
  refine ⟨by decide, ?_, ?_, by decide⟩
  · rintro _ ⟨⟩
    exact ImageFile.whole_readable _
  · rintro _ ⟨⟩
    exact ImageFile.whole_readable _

end LoadOptions

end Plex86
