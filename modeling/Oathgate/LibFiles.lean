import Mathlib.Data.List.Infix
import Mathlib.Data.List.TakeWhile
import Mathlib.Logic.Function.Basic
import Oathgate.LibRes
/-!
# LibFiles — paths and a tree of files

A path is the list of its components from the root, `..` included, and a tree maps resolved paths to directories and
files.  Operations take what the device lets them do (`disk`, `fails`) and keep what they did before an error.
`Extends d` says that an operation loses nothing outside the directory `d`, and `Adds` that it only made directories.
-/
namespace Lib

abbrev Path := List String

namespace Path

/-- The components of a path text; `.` and empty ones do not count. -/
def parts (name : String) : Path :=
  ((name.toList.splitOn '/').map String.ofList).filter (fun c => decide (c ≠ "" ∧ c ≠ "."))

/-- `Path::join`: an absolute text replaces the path. -/
def join (p : Path) (name : String) : Path :=
  if name.toList.head? = some '/' then parts name else p ++ parts name

/-- `Path::file_stem` of a file name: what stands before the last dot, unless nothing does. -/
def stem (name : String) : String :=
  match name.toList.reverse.dropWhile (fun c => decide (c ≠ '.')) with
  | [] => name
  | _ :: before => if before = [] then name else String.ofList before.reverse

/-- `Path::with_extension`, which leaves a path without a file name alone. -/
def withExtension (p : Path) (ext : String) : Path :=
  match p.getLast? with
  | none => p
  | some name => if name = ".." then p else p.dropLast ++ [stem name ++ "." ++ ext]

/-- The path without its `..`, in a tree without links. -/
def resolve (p : Path) : Path := p.foldl (fun q c => if c = ".." then q.dropLast else q ++ [c]) []

/-- **A text that is one file name**, which `join` appends. -/
def Plain (name : String) : Prop := '/' ∉ name.toList ∧ name ≠ "" ∧ name ≠ "." ∧ name ≠ ".."

instance (name : String) : Decidable (Plain name) := inferInstanceAs (Decidable (_ ∧ _))

theorem join_of_plain {name : String} (h : Plain name) (p : Path) : join p name = p ++ [name] := by
  obtain ⟨hslash, hempty, hdot, -⟩ := h
  have hhead : name.toList.head? ≠ some '/' := fun hh => hslash (List.mem_of_mem_head? hh)
  have hparts : parts name = [name] := by
    unfold parts
    rw [List.splitOn_eq_singleton hslash]
    simp [String.ofList_toList, hempty, hdot]
  unfold join
  rw [if_neg hhead, hparts]

theorem resolve_snoc {c : String} (hc : c ≠ "..") (p : Path) : resolve (p ++ [c]) = resolve p ++ [c] := by
  unfold resolve
  rw [List.foldl_append, List.foldl_cons, List.foldl_nil, if_neg hc]

theorem withExtension_snoc {c : String} (hc : c ≠ "..") (p : Path) (ext : String) :
    withExtension (p ++ [c]) ext = p ++ [stem c ++ "." ++ ext] := by
  unfold withExtension
  simp [hc]

theorem stem_of_no_dot {c : String} (h : '.' ∉ c.toList) : stem c = c := by
  have hdrop : c.toList.reverse.dropWhile (fun d => decide (d ≠ '.')) = [] := by
    rw [List.dropWhile_eq_nil_iff]
    intro d hd
    have hne : d ≠ '.' := by
      rintro rfl
      exact h (List.mem_reverse.1 hd)
    simpa using hne
  unfold stem
  rw [hdrop]

theorem extended_ne {ext : String} (h : 2 ≤ ext.length) (c : String) : c ++ "." ++ ext ≠ ".." := by
  intro heq
  have hlen := congrArg String.length heq
  simp only [String.length_append] at hlen
  have : ".".length = 1 := rfl
  have : "..".length = 2 := rfl
  omega

end Path

inductive Node (B : Type) where
  | dir
  | file (bytes : List B)
  deriving DecidableEq, Repr

/-- **A tree**: what stands at every resolved path but the root, which is a directory. -/
abbrev Files (B : Type) := Path → Option (Node B)

inductive IoError where
  | notFound
  | alreadyExists
  | notADirectory
  | isADirectory
  | other
  deriving DecidableEq, Repr

namespace Files

variable {B : Type}

def isDir (fs : Files B) (p : Path) : Bool :=
  p.isEmpty || match fs p with
    | some .dir => true
    | _ => false

def put (fs : Files B) (p : Path) (n : Node B) : Files B := Function.update fs p (some n)

def mkdir (disk : Path → Bool) (p : Path) (fs : Files B) : Res IoError Unit × Files B :=
  match fs p with
  | some .dir => (.ok (), fs)
  | some (.file _) => (.err .alreadyExists, fs)
  | none => if disk p then (.ok (), fs.put p .dir) else (.err .other, fs)

/-- Make the directories from `q` down. -/
def mkdirFrom (disk : Path → Bool) (q : Path) : Path → Files B → Res IoError Unit × Files B
  | [], fs => (.ok (), fs)
  | c :: cs, fs => Res.andThen (mkdir disk (q ++ [c]) fs) fun _ fs => mkdirFrom disk (q ++ [c]) cs fs

/-- `std::fs::create_dir_all` -/
def createDirAll (disk : Path → Bool) (p : Path) (fs : Files B) : Res IoError Unit × Files B :=
  mkdirFrom disk [] p.resolve fs

/-- `std::fs::hard_link`.  The new name keeps the bytes; what is written through one name later is not followed to the
other. -/
def hardLink (disk : Path → Bool) (src dst : Path) (fs : Files B) : Res IoError Unit × Files B :=
  match fs src.resolve with
  | none => (.err .notFound, fs)
  | some .dir => (.err .other, fs)
  | some (.file bytes) =>
    if fs.isDir dst.resolve.dropLast then
      match fs dst.resolve with
      | some _ => (.err .alreadyExists, fs)
      | none => if disk dst.resolve then (.ok (), fs.put dst.resolve (.file bytes)) else (.err .other, fs)
    else (.err .notFound, fs)

/-- `open` with `write` and `create`: what the file holds stays. -/
def openCreate (disk : Path → Bool) (p : Path) (fs : Files B) : Res IoError Unit × Files B :=
  match fs p.resolve with
  | some .dir => (.err .isADirectory, fs)
  | some (.file _) => if disk p.resolve then (.ok (), fs) else (.err .other, fs)
  | none =>
    if fs.isDir p.resolve.dropLast then
      if disk p.resolve then (.ok (), fs.put p.resolve (.file [])) else (.err .other, fs)
    else (.err .notFound, fs)

/-- The bytes of a file after others were written from its start on. -/
def overwrite (old new : List B) : List B := new ++ old.drop new.length

/-- Write at the start of an open file. -/
def write (p : Path) (bytes : List B) (fs : Files B) : Files B :=
  match fs p.resolve with
  | some (.file old) => fs.put p.resolve (.file (overwrite old bytes))
  | _ => fs

/-- `std::io::copy` into an open file; with `fails` it stops after some bytes. -/
def ioCopy (fails : Option Nat) (bytes : List B) (p : Path) (fs : Files B) : Res IoError Unit × Files B :=
  match fails with
  | none => (.ok (), fs.write p bytes)
  | some n => (.err .other, fs.write p (bytes.take n))

/-- `std::fs::copy`, which truncates its target. -/
def copy (disk : Path → Bool) (fails : Option Nat) (src dst : Path) (fs : Files B) : Res IoError Unit × Files B :=
  match fs src.resolve with
  | none => (.err .notFound, fs)
  | some .dir => (.err .other, fs)
  | some (.file bytes) =>
    Res.andThen (fs.openCreate disk dst) fun _ fs => ioCopy fails bytes dst (fs.put dst.resolve (.file []))

/-- `std::fs::remove_dir_all`; with `fails` the entries it chooses are left. -/
def removeDirAll (fails : Option (Path → Bool)) (p : Path) (fs : Files B) : Res IoError Unit × Files B :=
  match fs p.resolve with
  | none => (.err .notFound, fs)
  | some (.file _) => (.err .notADirectory, fs)
  | some .dir =>
    match fails with
    | none => (.ok (), fun q => if p.resolve <+: q then none else fs q)
    | some kept => (.err .other, fun q => if p.resolve <+: q ∧ kept q = false then none else fs q)

/-! ## What stays -/

/-- Whatever stood somewhere still does. -/
def Keeps (fs fs' : Files B) : Prop := ∀ q n, fs q = some n → fs' q = some n

/-- **Nothing outside `d` is lost**: whatever stood at a path that is not under `d` still does. -/
def Extends (d : Path) (fs fs' : Files B) : Prop := ∀ q n, fs q = some n → ¬ d <+: q → fs' q = some n

variable {d p src dst : Path} {fs fs' fs'' : Files B} {disk : Path → Bool}

theorem Keeps.refl (fs : Files B) : Keeps fs fs := fun _ _ h => h

theorem Keeps.trans (h : Keeps fs fs') (h' : Keeps fs' fs'') : Keeps fs fs'' := fun q n hq => h' q n (h q n hq)

theorem Keeps.extends (h : Keeps fs fs') : Extends d fs fs' := fun q n hq _ => h q n hq

theorem Extends.refl (d : Path) (fs : Files B) : Extends d fs fs := fun _ _ h _ => h

theorem Extends.trans (h : Extends d fs fs') (h' : Extends d fs' fs'') : Extends d fs fs'' :=
  fun q n hq hd => h' q n (h q n hq hd) hd

@[simp] theorem put_self (fs : Files B) (p : Path) (n : Node B) : fs.put p n p = some n := Function.update_self ..

theorem put_of_ne {q : Path} (h : q ≠ p) (fs : Files B) (n : Node B) : fs.put p n q = fs q := Function.update_of_ne h ..

theorem keeps_put (h : fs p = none) (n : Node B) : Keeps fs (fs.put p n) := by
  intro q m hq
  have hne : q ≠ p := by
    rintro rfl
    rw [h] at hq
    cases hq
  rw [put_of_ne hne]
  exact hq

theorem extends_put (h : d <+: p) (n : Node B) : Extends d fs (fs.put p n) := by
  intro q m hq hd
  have hne : q ≠ p := by
    rintro rfl
    exact hd h
  rw [put_of_ne hne]
  exact hq

theorem keeps_hardLink (disk : Path → Bool) (src dst : Path) (fs : Files B) :
    Keeps fs (hardLink disk src dst fs).2 := by
  unfold hardLink
  cases hsrc : fs src.resolve with
  | none => exact Keeps.refl fs
  | some n =>
    cases n with
    | dir => exact Keeps.refl fs
    | file b =>
      simp only
      split
      · cases hdst : fs dst.resolve with
        | some m => exact Keeps.refl fs
        | none =>
          simp only
          split
          · exact keeps_put hdst _
          · exact Keeps.refl fs
      · exact Keeps.refl fs

theorem keeps_openCreate (disk : Path → Bool) (p : Path) (fs : Files B) : Keeps fs (openCreate disk p fs).2 := by
  unfold openCreate
  cases hp : fs p.resolve with
  | none =>
    simp only
    split
    · split
      · exact keeps_put hp _
      · exact Keeps.refl fs
    · exact Keeps.refl fs
  | some n =>
    cases n with
    | dir => exact Keeps.refl fs
    | file b =>
      simp only
      split
      · exact Keeps.refl fs
      · exact Keeps.refl fs

theorem extends_write (h : d <+: p.resolve) (bytes : List B) (fs : Files B) : Extends d fs (fs.write p bytes) := by
  unfold write
  cases hp : fs p.resolve with
  | none => exact Extends.refl d fs
  | some n =>
    cases n with
    | dir => exact Extends.refl d fs
    | file old => exact extends_put h _

theorem extends_ioCopy (h : d <+: p.resolve) (fails : Option Nat) (bytes : List B) (fs : Files B) :
    Extends d fs (ioCopy fails bytes p fs).2 := by
  unfold ioCopy
  cases fails with
  | none => exact extends_write h bytes fs
  | some n => exact extends_write h (bytes.take n) fs

/-- **Copying to a file under `d` loses nothing outside `d`.** -/
theorem extends_copy (h : d <+: dst.resolve) (disk : Path → Bool) (fails : Option Nat) (src : Path) (fs : Files B) :
    Extends d fs (copy disk fails src dst fs).2 := by
  unfold copy
  cases hsrc : fs src.resolve with
  | none => exact Extends.refl d fs
  | some n =>
    cases n with
    | dir => exact Extends.refl d fs
    | file b =>
      apply Res.andThen_keeps (P := Extends d fs)
      · exact (keeps_openCreate disk dst fs).extends
      · exact fun _ fs' h' => (h'.trans (extends_put h _)).trans (extends_ioCopy h fails b _)

/-- **Removing a directory loses nothing outside it.** -/
theorem extends_removeDirAll (fails : Option (Path → Bool)) (p : Path) (fs : Files B) :
    Extends p.resolve fs (removeDirAll fails p fs).2 := by
  unfold removeDirAll
  cases hp : fs p.resolve with
  | none => exact Extends.refl _ fs
  | some n =>
    cases n with
    | file b => exact Extends.refl _ fs
    | dir =>
      cases fails with
      | none =>
        intro q m hq hd
        simp only [hd, ↓reduceIte]
        exact hq
      | some kept =>
        intro q m hq hd
        simp only [hd, false_and, ↓reduceIte]
        exact hq

/-! ## Making directories -/

/-- Directories were added on the way to `p`, and nothing else changed. -/
def Adds (p : Path) (fs fs' : Files B) : Prop :=
  ∀ q, fs' q = fs q ∨ (fs q = none ∧ fs' q = some .dir ∧ q <+: p)

theorem Adds.keeps (h : Adds p fs fs') : Keeps fs fs' := by
  intro q n hq
  rcases h q with heq | ⟨hnone, -⟩
  · rw [heq]
    exact hq
  · rw [hnone] at hq
    cases hq

theorem Adds.trans (h : Adds p fs fs') (h' : Adds p fs' fs'') : Adds p fs fs'' := by
  intro q
  rcases h' q with heq' | ⟨hnone, hdir, hpre⟩
  · rw [heq']
    exact h q
  · rcases h q with heq | ⟨-, hdir', -⟩
    · exact Or.inr ⟨by rw [← heq, hnone], hdir, hpre⟩
    · rw [hnone] at hdir'
      cases hdir'

/-- A path longer than `p` is not on the way to it. -/
theorem Adds.of_long {q : Path} (h : Adds p fs fs') (hlen : p.length < q.length) : fs' q = fs q := by
  rcases h q with heq | ⟨-, -, hpre⟩
  · exact heq
  · exact absurd hpre.length_le (by omega)

/-- Every directory on the way to `p` is there or can be made. -/
def Makeable (disk : Path → Bool) (p : Path) (fs : Files B) : Prop :=
  ∀ q ∈ p.inits, q ≠ [] → fs q = some .dir ∨ (fs q = none ∧ disk q = true)

instance [DecidableEq B] (disk : Path → Bool) (p : Path) (fs : Files B) : Decidable (Makeable disk p fs) :=
  inferInstanceAs (Decidable (∀ q ∈ p.inits, q ≠ [] → fs q = some .dir ∨ (fs q = none ∧ disk q = true)))

theorem Makeable.adds {p' : Path} (h : Makeable disk p fs) (hadds : Adds p' fs fs') : Makeable disk p fs' := by
  intro q hq hne
  rcases h q hq hne with hdir | ⟨hnone, hdisk⟩
  · exact Or.inl (hadds.keeps q _ hdir)
  · rcases hadds q with heq | ⟨-, hdir, -⟩
    · exact Or.inr ⟨by rw [heq, hnone], hdisk⟩
    · exact Or.inl hdir

theorem adds_mkdir (disk : Path → Bool) {q : Path} (hq : q <+: p) (fs : Files B) : Adds p fs (mkdir disk q fs).2 := by
  intro r
  unfold mkdir
  cases hnode : fs q with
  | some n =>
    cases n with
    | dir => exact Or.inl rfl
    | file b => exact Or.inl rfl
  | none =>
    simp only
    split
    · by_cases hr : r = q
      · subst hr
        exact Or.inr ⟨hnode, put_self _ _ _, hq⟩
      · exact Or.inl (put_of_ne hr _ _)
    · exact Or.inl rfl

theorem adds_mkdirFrom (disk : Path → Bool) : ∀ (cs q : Path) (fs : Files B), q ++ cs = p →
    Adds p fs (mkdirFrom disk q cs fs).2
  | [], _, _, _ => fun _ => Or.inl rfl
  | c :: cs, q, fs, h => by
    have hp : q ++ [c] ++ cs = p := by rw [List.append_assoc, List.singleton_append, h]
    have hmk : Adds p fs (mkdir disk (q ++ [c]) fs).2 := adds_mkdir disk ⟨cs, hp⟩ fs
    unfold mkdirFrom
    apply Res.andThen_keeps (P := Adds p fs) hmk
    exact fun _ fs' h' => h'.trans (adds_mkdirFrom disk cs (q ++ [c]) fs' hp)

/-- **`create_dir_all` only adds directories on its way.** -/
theorem adds_createDirAll (disk : Path → Bool) (p : Path) (fs : Files B) :
    Adds p.resolve fs (createDirAll disk p fs).2 := adds_mkdirFrom disk p.resolve [] fs rfl

theorem mkdirFrom_ok : ∀ (cs q : Path) (fs : Files B), q ++ cs = p → Makeable disk p fs →
    (mkdirFrom disk q cs fs).1 = .ok () ∧ (cs ≠ [] → (mkdirFrom disk q cs fs).2 p = some .dir)
  | [], _, _, _, _ => ⟨rfl, fun h => absurd rfl h⟩
  | c :: cs, q, fs, h, hmk => by
    have hp : q ++ [c] ++ cs = p := by rw [List.append_assoc, List.singleton_append, h]
    have hpre : q ++ [c] <+: p := ⟨cs, hp⟩
    have hone : (mkdir disk (q ++ [c]) fs).1 = .ok () ∧ (mkdir disk (q ++ [c]) fs).2 (q ++ [c]) = some .dir := by
      unfold mkdir
      rcases hmk (q ++ [c]) ((List.mem_inits _ _).2 hpre) (by simp) with hdir | ⟨hnone, hdisk⟩
      · simp [hdir]
      · simp [hnone, hdisk]
    have hadds : Adds p fs (mkdir disk (q ++ [c]) fs).2 := adds_mkdir disk hpre fs
    cases hmkdir : mkdir disk (q ++ [c]) fs with
    | mk r fs' =>
      rw [hmkdir] at hone hadds
      simp only at hone
      unfold mkdirFrom
      rw [hmkdir, hone.1, Res.andThen_ok]
      obtain ⟨hok, hdir⟩ := mkdirFrom_ok cs (q ++ [c]) fs' hp (hmk.adds hadds)
      refine ⟨hok, fun _ => ?_⟩
      cases cs with
      | nil =>
        rw [List.append_nil] at hp
        rw [← hp]
        exact hone.2
      | cons c' cs => exact hdir (by simp)

/-- **`create_dir_all` makes its directory** when everything on the way is there or can be made. -/
theorem createDirAll_ok (h : Makeable disk p.resolve fs) (hp : p.resolve ≠ []) :
    (createDirAll disk p fs).1 = .ok () ∧ (createDirAll disk p fs).2 p.resolve = some .dir := by
  obtain ⟨hok, hdir⟩ := mkdirFrom_ok p.resolve [] fs rfl h
  exact ⟨hok, hdir hp⟩

/-! ## Linking and copying -/

theorem isDir_of_dir (h : fs p = some .dir) : fs.isDir p = true := by
  unfold isDir
  rw [h, Bool.or_true]

theorem hardLink_ok {b : List B} (hsrc : fs src.resolve = some (.file b)) (hdir : fs.isDir dst.resolve.dropLast = true)
    (hdst : fs dst.resolve = none) (hdisk : disk dst.resolve = true) :
    hardLink disk src dst fs = (.ok (), fs.put dst.resolve (.file b)) := by
  unfold hardLink
  simp only [hsrc, hdir, hdst, hdisk, ↓reduceIte]

/-- A file can be opened where its directory is there and it is no directory itself. -/
theorem openCreate_opens (hdir : fs.isDir p.resolve.dropLast = true) (hnode : fs p.resolve ≠ some .dir)
    (hdisk : disk p.resolve = true) : (openCreate disk p fs).1 = .ok () := by
  unfold openCreate
  cases hp : fs p.resolve with
  | none => simp [hdir, hdisk]
  | some n =>
    cases n with
    | dir => exact absurd hp hnode
    | file old => simp [hdisk]

theorem copy_ok {b : List B} (hsrc : fs src.resolve = some (.file b)) (hdir : fs.isDir dst.resolve.dropLast = true)
    (hdst : fs dst.resolve ≠ some .dir) (hdisk : disk dst.resolve = true) :
    (copy disk none src dst fs).1 = .ok () ∧ (copy disk none src dst fs).2 dst.resolve = some (.file b) := by
  have hopen : (openCreate disk dst fs).1 = .ok () := openCreate_opens hdir hdst hdisk
  cases hx : openCreate disk dst fs with
  | mk r fs' =>
    rw [hx] at hopen
    simp only at hopen
    have hcopy : copy disk none src dst fs = ioCopy none b dst (fs'.put dst.resolve (.file [])) := by
      unfold copy
      rw [hsrc, hx, hopen]
      rfl
    rw [hcopy]
    refine ⟨rfl, ?_⟩
    simp [ioCopy, write, overwrite]

/-! ## Opening and writing -/

/-- What an open file holds: what stood there, or nothing in a file that was made. -/
def Held (fs : Files B) (p : Path) (old : List B) : Prop := fs p = some (.file old) ∨ (fs p = none ∧ old = [])

theorem Held.unique {old old' : List B} (h : Held fs p old) (h' : Held fs p old') : old = old' := by
  rcases h with h | ⟨h, rfl⟩
  · rcases h' with h' | ⟨h', -⟩
    · rw [h] at h'
      exact Node.file.inj (Option.some.inj h')
    · rw [h] at h'
      cases h'
  · rcases h' with h' | ⟨-, rfl⟩
    · rw [h] at h'
      cases h'
    · rfl

/-- **A file that was opened holds what it held**, and nothing else changed. -/
theorem openCreate_ok {u : Unit} (h : openCreate disk p fs = (.ok u, fs')) :
    ∃ old, Held fs p.resolve old ∧ fs' p.resolve = some (.file old) ∧ ∀ q, q ≠ p.resolve → fs' q = fs q := by
  unfold openCreate at h
  cases hnode : fs p.resolve with
  | some n =>
    cases n with
    | dir => simp [hnode] at h
    | file old =>
      simp only [hnode] at h
      split at h
      · cases h
        exact ⟨old, Or.inl hnode, hnode, fun _ _ => rfl⟩
      · cases h
  | none =>
    simp only [hnode] at h
    split at h
    · split at h
      · cases h
        exact ⟨[], Or.inr ⟨hnode, rfl⟩, put_self _ _ _, fun q hq => put_of_ne hq _ _⟩
      · cases h
    · cases h

theorem openCreate_stopped (h : ∀ u, (openCreate disk p fs).1 ≠ .ok u) : (openCreate disk p fs).2 = fs := by
  unfold openCreate at h ⊢
  cases hnode : fs p.resolve with
  | some n =>
    cases n with
    | dir => rfl
    | file old =>
      simp only
      split
      · rfl
      · rfl
  | none =>
    simp only [hnode] at h ⊢
    split
    · rename_i hdir
      split
      · rename_i hdisk
        simp [hdir, hdisk] at h
      · rfl
    · rfl

theorem write_of_file {old : List B} (h : fs p.resolve = some (.file old)) (bytes : List B) :
    fs.write p bytes = fs.put p.resolve (.file (overwrite old bytes)) := by
  unfold write
  rw [h]

/-- Copying into an open file, all bytes or some. -/
theorem ioCopy_none {old : List B} (h : fs p.resolve = some (.file old)) (bytes : List B) :
    ioCopy none bytes p fs = (.ok (), fs.put p.resolve (.file (overwrite old bytes))) := by
  rw [← write_of_file h]
  rfl

theorem ioCopy_some {old : List B} (h : fs p.resolve = some (.file old)) (n : Nat) (bytes : List B) :
    ioCopy (some n) bytes p fs = (.err .other, fs.put p.resolve (.file (overwrite old (bytes.take n)))) := by
  rw [← write_of_file h]
  rfl

/-- Writing a prefix of some bytes over a prefix of them leaves a prefix. -/
theorem overwrite_prefix {old bytes : List B} (h : old <+: bytes) (n : Nat) :
    overwrite old (bytes.take n) <+: bytes := by
  obtain ⟨rest, rfl⟩ := h
  unfold overwrite
  by_cases hn : n ≤ old.length
  · have htake : (old ++ rest).take n = old.take n := List.take_append_of_le_length hn
    rw [htake, List.length_take, Nat.min_eq_left hn, List.take_append_drop]
    exact List.prefix_append _ _
  · rw [List.drop_eq_nil_of_le (by rw [List.length_take, List.length_append]; omega), List.append_nil]
    exact List.take_prefix _ _

theorem overwrite_self (bytes : List B) (n : Nat) : overwrite bytes (bytes.take n) = bytes := by
  unfold overwrite
  rw [List.length_take]
  by_cases hn : n ≤ bytes.length
  · rw [Nat.min_eq_left hn, List.take_append_drop]
  · rw [List.take_of_length_le (by omega), Nat.min_eq_right (by omega), List.drop_length, List.append_nil]

theorem overwrite_whole {old bytes : List B} (h : old <+: bytes) : overwrite old bytes = bytes := by
  unfold overwrite
  rw [List.drop_eq_nil_of_le h.length_le, List.append_nil]

end Files
end Lib
