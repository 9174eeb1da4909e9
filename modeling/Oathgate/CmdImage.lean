import Oathgate.CmdShard
import Oathgate.LibBase32
/-!
# CmdImage — installing disk images (`oathgate`: `cmd/image.rs`, `database/image.rs`, `cmd.rs`)

An image is stored under a hash of its first 8 MiB, in a file that is written before the row is, and not truncated.
While no two installed files differ only beyond the part that is hashed, every row has the bytes it was installed from
(`installs_keep_images`); a file that does differ only there writes over the other's (`install_overwrites_other`).
-/
namespace Oathgate

open Lib

/-! ## The hash of a file -/

/-- The first `k` chunks of `n` bytes: `chunks(n).take(k)`. -/
def firstChunks (n : Nat) : Nat → List Byte → List (List Byte)
  | 0, _ => []
  | _ + 1, [] => []
  | k + 1, b :: bs => (b :: bs).take n :: firstChunks n k ((b :: bs).drop n)

theorem flatten_firstChunks (n k : Nat) (bytes : List Byte) :
    (firstChunks n k bytes).flatten = bytes.take (n * k) := by
  induction k generalizing bytes with
  | zero => rw [Nat.mul_zero, List.take_zero]; rfl
  | succ k ih =>
    cases bytes with
    | nil => rw [List.take_nil]; rfl
    | cons b bs =>
      rw [firstChunks, List.flatten_cons, ih, Nat.mul_succ, Nat.add_comm, List.take_add]

/-- What `hash_file` feeds the hasher. -/
def hashedPart (bytes : List Byte) : List Byte := (firstChunks 1024 8192 bytes).flatten

/-- What `hash_file` uses of `sha3` and `base32`: the six bytes that SHAKE128 gives for what it was fed, and the text of
six bytes in Crockford's alphabet.  It is relied on that the text tells the bytes and can be the name of a file. -/
structure Hashing where
  shake128 : List Byte → BitVec 48
  base32 : BitVec 48 → String
  base32_inj : ∀ d d', base32 d = base32 d' → d = d'
  base32_plain : ∀ d, Path.Plain (base32 d)
  base32_no_dot : ∀ d, '.' ∉ (base32 d).toList

/-! ## The install -/

/-- One `image_install`: its options, and what it finds. -/
structure Install where
  env : Env
  name : Option String
  root : Option (BitVec 8)
  /-- What `get_mime` gives. -/
  mime : Res AppError String
  /-- The bytes of the file, when it can be opened. -/
  source : Option (List Byte)
  /-- The file can be mapped. -/
  mapped : Bool

/-- Where the image with a hash stands. -/
def State.imageAt (st : State) (hash : String) : Path :=
  (((st.base.join "images").join hash).withExtension "img").resolve

/-- `DiskImage::save` -/
def DiskImage.save (env : Env) (image : DiskImage) (host : Host) : Res AppError Unit × Host :=
  host.transaction env.saved fun db => do
    let images ← Database.upsertUnique DiskImage.id DiskImage.hash "images.hash" db.images image
    return ((), { db with images })

/-- The format for a mime type; an unknown one counts as raw. -/
def formatOf (mime : String) : DiskFormat :=
  if mime = "application/x-qemu-disk" then .qcow2 else .raw

namespace Install

variable (hashing : Hashing)

/-- `hash_file`, once the file is mapped. -/
def hashOf (bytes : List Byte) : String := hashing.base32 (hashing.shake128 (hashedPart bytes))

def hashFile (mapped : Bool) (bytes : List Byte) : Res AppError String :=
  if mapped then .ok (hashOf hashing bytes) else .err .io

def openSource (c : Install) : Res AppError (List Byte) :=
  match c.source with
  | some bytes => .ok bytes
  | none => .err .io

/-- The file of an image is opened, made if it is not there, and written from its start on. -/
def writeFile (env : Env) (bytes : List Byte) (dst : Path) (fs : Files Byte) : Res IoError Unit × Files Byte :=
  Res.andThen (fs.openCreate env.disk dst) fun _ fs => fs.ioCopy env.copyFails bytes dst

/-- The last steps of `image_install`: the file is written, then the row. -/
def storeImage (st : State) (env : Env) (image : DiskImage) (bytes : List Byte) (host : Host) :
    Res AppError Unit × Host :=
  let dst := image.path st env.disk host.files
  Res.andThen ({ host with files := dst.2 }.onFiles (writeFile env bytes dst.1)) fun _ host => image.save env host

def imageInstall (st : State) (c : Install) (host : Host) : Res AppError Unit × Host :=
  Res.andThen (c.env.nameOr c.name, host) fun name host =>
  Res.andThen (c.mime, host) fun mime host =>
  Res.andThen (c.openSource, host) fun bytes host =>
  Res.andThen (hashFile hashing c.mapped bytes, host) fun hash host =>
    storeImage st c.env { id := c.env.id, hash, name, format := formatOf mime, root := c.root } bytes host

/-- The row that an install of some bytes makes. -/
def Makes (c : Install) (image : DiskImage) (bytes : List Byte) : Prop :=
  c.source = some bytes ∧ image.id = c.env.id ∧ image.hash = hashOf hashing bytes ∧ image.root = c.root ∧
    c.env.nameOr c.name = .ok image.name ∧ ∃ mime, c.mime = .ok mime ∧ image.format = formatOf mime

/-- **An install stops before it changed anything, or comes to store the image it makes.** -/
theorem imageInstall_cases (st : State) (c : Install) (host : Host) :
    Res.StopsOr host (fun x => ∃ image bytes, c.Makes hashing image bytes ∧ x = storeImage st c.env image bytes host)
      (imageInstall hashing st c host) := by
  apply Res.stopsOr_andThen
  · rfl
  intro name hname
  apply Res.stopsOr_andThen
  · rfl
  intro mime hmime
  apply Res.stopsOr_andThen
  · rfl
  intro bytes hopen
  apply Res.stopsOr_andThen
  · rfl
  intro hash hhash
  have hsource : c.source = some bytes := by
    unfold openSource at hopen
    cases hs : c.source with
    | none =>
      rw [hs] at hopen
      cases hopen
    | some b =>
      rw [hs] at hopen
      cases hopen
      rfl
  have htext : hash = hashOf hashing bytes := by
    unfold hashFile at hhash
    split at hhash
    · exact (Res.ok.inj hhash).symm
    · cases hhash
  exact Or.inr ⟨_, bytes, ⟨hsource, rfl, htext, rfl, hname, mime, hmime, rfl⟩, rfl⟩

/-! ## Storing -/

variable {st : State} {env : Env} {hashing}

theorem images_resolve (st : State) : (st.base.join "images").resolve = st.base.resolve ++ ["images"] := by
  rw [Path.join_of_plain (by decide), Path.resolve_snoc (by decide)]

theorem imageAt_hashOf (st : State) (hashing : Hashing) (bytes : List Byte) :
    st.imageAt (hashOf hashing bytes) = st.base.resolve ++ ["images", hashOf hashing bytes ++ "." ++ "img"] := by
  have hplain := hashing.base32_plain (hashing.shake128 (hashedPart bytes))
  have hdot := hashing.base32_no_dot (hashing.shake128 (hashedPart bytes))
  have himages : st.base.join "images" = st.base ++ ["images"] := Path.join_of_plain (by decide) _
  unfold State.imageAt hashOf
  rw [himages, Path.join_of_plain hplain, Path.withExtension_snoc hplain.2.2.2, Path.stem_of_no_dot hdot,
    Path.resolve_snoc (Path.extended_ne (by decide) _), Path.resolve_snoc (by decide), List.append_assoc]
  rfl

theorem imageAt_length (st : State) (hashing : Hashing) (bytes : List Byte) :
    (st.imageAt (hashOf hashing bytes)).length = st.base.resolve.length + 2 := by
  rw [imageAt_hashOf, List.length_append]
  rfl

/-- **Files with different hashes stand at different paths.** -/
theorem imageAt_inj {bytes bytes' : List Byte}
    (h : st.imageAt (hashOf hashing bytes) = st.imageAt (hashOf hashing bytes')) :
    hashOf hashing bytes = hashOf hashing bytes' := by
  rw [imageAt_hashOf, imageAt_hashOf] at h
  simp only [List.append_cancel_left_eq, List.cons.injEq, and_true, true_and] at h
  have hchars := congrArg String.toList h
  simp only [String.toList_append, List.append_cancel_right_eq] at hchars
  exact String.toList_inj.1 hchars

theorem save_cases (env : Env) (image : DiskImage) (host : Host) :
    image.save env host =
        (.ok (), { host with db := { host.db with images := upsert DiskImage.id host.db.images image } }) ∨
      ((image.save env host).1 ≠ .ok () ∧ (image.save env host).2 = host) := by
  unfold DiskImage.save Host.transaction Database.transaction
  simp only
  cases hrows : Database.upsertUnique DiskImage.id DiskImage.hash "images.hash" host.db.images image with
  | err e => exact Or.inr ⟨fun h => (by cases h), rfl⟩
  | panic p => exact Or.inr ⟨fun h => (by cases h), rfl⟩
  | ok rows =>
    cases env.saved with
    | false => exact Or.inr ⟨fun h => (by cases h), rfl⟩
    | true =>
      rw [Database.upsertUnique_ok hrows]
      exact Or.inl rfl

/-- What a write that stops leaves at its path: what stood there, or some bytes of the source over it. -/
def Begun (fs fs' : Files Byte) (p : Path) (bytes : List Byte) : Prop :=
  fs' p = fs p ∨ ∃ old n, Files.Held fs p old ∧ fs' p = some (.file (Files.overwrite old (bytes.take n)))

/-- What a write that goes through leaves at its path: all bytes of the source over what stood there. -/
def Done (fs fs' : Files Byte) (p : Path) (bytes : List Byte) : Prop :=
  ∃ old, Files.Held fs p old ∧ fs' p = some (.file (Files.overwrite old bytes))

theorem Done.begun {fs fs' : Files Byte} {p : Path} {bytes : List Byte} (h : Done fs fs' p bytes) :
    Begun fs fs' p bytes := by
  obtain ⟨old, hheld, hfile⟩ := h
  exact Or.inr ⟨old, bytes.length, hheld, by rw [List.take_length]; exact hfile⟩

theorem writeFile_cases (env : Env) (bytes : List Byte) (dst : Path) (fs : Files Byte) :
    (∀ q, q ≠ dst.resolve → (writeFile env bytes dst fs).2 q = fs q) ∧
      (((writeFile env bytes dst fs).1 ≠ .ok () ∧ Begun fs (writeFile env bytes dst fs).2 dst.resolve bytes) ∨
        ((writeFile env bytes dst fs).1 = .ok () ∧ Done fs (writeFile env bytes dst fs).2 dst.resolve bytes)) := by
  have hstopped : (∀ u, (fs.openCreate env.disk dst).1 ≠ .ok u) → (fs.openCreate env.disk dst).2 = fs :=
    Files.openCreate_stopped
  unfold writeFile
  cases hopen : fs.openCreate env.disk dst with
  | mk r fs' =>
    rw [hopen] at hstopped
    cases r with
    | err e =>
      obtain rfl : fs' = fs := hstopped (fun _ h => by cases h)
      exact ⟨fun _ _ => rfl, Or.inl ⟨fun h => (by cases h), Or.inl rfl⟩⟩
    | panic e =>
      obtain rfl : fs' = fs := hstopped (fun _ h => by cases h)
      exact ⟨fun _ _ => rfl, Or.inl ⟨fun h => (by cases h), Or.inl rfl⟩⟩
    | ok u =>
      obtain ⟨old, hheld, hfile, hsame⟩ := Files.openCreate_ok hopen
      rw [Res.andThen_ok]
      cases env.copyFails with
      | none =>
        rw [Files.ioCopy_none hfile]
        refine ⟨fun q hq => ?_, Or.inr ⟨rfl, old, hheld, Files.put_self _ _ _⟩⟩
        exact (Files.put_of_ne hq _ _).trans (hsame q hq)
      | some n =>
        rw [Files.ioCopy_some hfile]
        refine ⟨fun q hq => ?_, Or.inl ⟨fun h => (by cases h), Or.inr ⟨old, n, hheld, Files.put_self _ _ _⟩⟩⟩
        exact (Files.put_of_ne hq _ _).trans (hsame q hq)

theorem path_keeps (st : State) (disk : Path → Bool) (image : DiskImage) (fs : Files Byte) :
    Files.Keeps fs (image.path st disk fs).2 := (st.adds_subdir disk "images" fs).keeps

/-- A file of the image directory is not touched when the directory is asked for. -/
theorem path_snd (st : State) (disk : Path → Bool) (image : DiskImage) (fs : Files Byte) {q : Path}
    (hq : st.base.resolve.length + 1 < q.length) : (image.path st disk fs).2 q = fs q := by
  apply (st.adds_subdir disk "images" fs).of_long
  rw [State.subdir_length (by decide)]
  exact hq

theorem path_imageAt {image : DiskImage} {bytes : List Byte} (hhash : image.hash = hashOf hashing bytes)
    (disk : Path → Bool) (fs : Files Byte) :
    (image.path st disk fs).2 (st.imageAt image.hash) = fs (st.imageAt image.hash) := by
  apply path_snd
  rw [hhash, imageAt_length]
  omega

/-- **What a store can do**: it touches no other file of the image directory; it stops with the tables as they were and
at most some bytes written, or writes all of them and the row. -/
theorem storeImage_cases (st : State) {image : DiskImage} {bytes : List Byte}
    (hhash : image.hash = hashOf hashing bytes) (env : Env) (host : Host) :
    (∀ q, st.base.resolve.length + 1 < q.length → q ≠ st.imageAt image.hash →
      (storeImage st env image bytes host).2.files q = host.files q) ∧
    (((storeImage st env image bytes host).1 ≠ .ok () ∧ (storeImage st env image bytes host).2.db = host.db ∧
        Begun host.files (storeImage st env image bytes host).2.files (st.imageAt image.hash) bytes) ∨
      ((storeImage st env image bytes host).1 = .ok () ∧
        (storeImage st env image bytes host).2.db.images = upsert DiskImage.id host.db.images image ∧
        Done host.files (storeImage st env image bytes host).2.files (st.imageAt image.hash) bytes)) := by
  have hlong := fun q => path_snd st env.disk image host.files (q := q)
  have hat : (image.path st env.disk host.files).2 (st.imageAt image.hash) = host.files (st.imageAt image.hash) :=
    path_imageAt hhash env.disk host.files
  obtain ⟨hsame, hout⟩ := writeFile_cases env bytes (image.path st env.disk host.files).1
    (image.path st env.disk host.files).2
  have hpath : (image.path st env.disk host.files).1.resolve = st.imageAt image.hash :=
    DiskImage.path_fst st env.disk image host.files
  rw [hpath] at hsame hout
  unfold Begun Done Files.Held at hout ⊢
  rw [hat] at hout
  cases hwrite : writeFile env bytes (image.path st env.disk host.files).1 (image.path st env.disk host.files).2 with
  | mk r fs' =>
    rw [hwrite] at hsame hout
    have hfiles : ∀ q, st.base.resolve.length + 1 < q.length → q ≠ st.imageAt image.hash → fs' q = host.files q :=
      fun q hq hne => (hsame q hne).trans (hlong q hq)
    have hstore : storeImage st env image bytes host =
        Res.andThen (r.mapErr fun _ => .io, { host with files := fs' }) fun _ host => image.save env host := by
      unfold storeImage Host.onFiles
      simp only [hwrite]
    rw [hstore]
    cases r with
    | err e =>
      rcases hout with ⟨-, hbegun⟩ | ⟨hok, -⟩
      · exact ⟨hfiles, Or.inl ⟨fun h => (by cases h), rfl, hbegun⟩⟩
      · cases hok
    | panic e =>
      rcases hout with ⟨-, hbegun⟩ | ⟨hok, -⟩
      · exact ⟨hfiles, Or.inl ⟨fun h => (by cases h), rfl, hbegun⟩⟩
      · cases hok
    | ok u =>
      rw [Res.mapErr_ok, Res.andThen_ok]
      rcases hout with ⟨hne, -⟩ | ⟨-, hdone⟩
      · exact absurd rfl hne
      · rcases save_cases env image { host with files := fs' } with hsave | ⟨hstop, hhost⟩
        · rw [hsave]
          exact ⟨hfiles, Or.inr ⟨rfl, rfl, hdone⟩⟩
        · rw [hhost]
          exact ⟨hfiles, Or.inl ⟨hstop, rfl, Done.begun hdone⟩⟩

/-! ## Any sequence of installs -/

/-- **The invariant**, for the files `S` that a run installs: where one of them is stored there is a first part of it,
and every row has a file of which all is there. -/
structure Stored (hashing : Hashing) (st : State) (S : List Byte → Prop) (host : Host) : Prop where
  begun : ∀ bytes, S bytes → host.files (st.imageAt (hashOf hashing bytes)) = none ∨
    ∃ b, host.files (st.imageAt (hashOf hashing bytes)) = some (.file b) ∧ b <+: bytes
  whole : ∀ row ∈ host.db.images, ∃ bytes, S bytes ∧ row.hash = hashOf hashing bytes ∧
    host.files (st.imageAt (hashOf hashing bytes)) = some (.file bytes)

theorem Stored.held {S : List Byte → Prop} {host : Host} (h : Stored hashing st S host) {bytes old : List Byte}
    (hS : S bytes) (hheld : Files.Held host.files (st.imageAt (hashOf hashing bytes)) old) : old <+: bytes := by
  rcases hheld with hfile | ⟨-, rfl⟩
  · rcases h.begun bytes hS with hnone | ⟨b, hb, hpre⟩
    · rw [hnone] at hfile
      cases hfile
    · rw [hfile] at hb
      cases hb
      exact hpre
  · exact List.nil_prefix

/-- A store that stops leaves a first part of its source, and all of it where all was there. -/
theorem Stored.after_begun {S : List Byte → Prop} {host : Host} (h : Stored hashing st S host) {bytes : List Byte}
    (hS : S bytes) {fs' : Files Byte}
    (hbegun : Begun host.files fs' (st.imageAt (hashOf hashing bytes)) bytes) :
    (fs' (st.imageAt (hashOf hashing bytes)) = none ∨
      ∃ b, fs' (st.imageAt (hashOf hashing bytes)) = some (.file b) ∧ b <+: bytes) ∧
    (host.files (st.imageAt (hashOf hashing bytes)) = some (.file bytes) →
      fs' (st.imageAt (hashOf hashing bytes)) = some (.file bytes)) := by
  rcases hbegun with hsame | ⟨old, n, hheld, hfile⟩
  · rw [hsame]
    exact ⟨h.begun bytes hS, fun hwhole => hwhole⟩
  · refine ⟨Or.inr ⟨_, hfile, Files.overwrite_prefix (h.held hS hheld) n⟩, ?_⟩
    intro hwhole
    have hold : old = bytes := by
      rcases hheld with hold | ⟨hnone, -⟩
      · rw [hwhole] at hold
        cases hold
        rfl
      · rw [hwhole] at hnone
        cases hnone
    rw [hfile, hold, Files.overwrite_self]

/-- **One file's place changes**, and no two of the files share a hash: whatever was begun or whole at any of their
places still is. -/
theorem Stored.files_after {S : List Byte → Prop} {host : Host} (h : Stored hashing st S host)
    (hinj : ∀ a b, S a → S b → hashOf hashing a = hashOf hashing b → a = b) {bytes : List Byte} (hS : S bytes)
    {fs' : Files Byte} (hbegun : Begun host.files fs' (st.imageAt (hashOf hashing bytes)) bytes)
    (hfiles : ∀ q, st.base.resolve.length + 1 < q.length → q ≠ st.imageAt (hashOf hashing bytes) →
      fs' q = host.files q) {b : List Byte} (hb : S b) :
    (fs' (st.imageAt (hashOf hashing b)) = none ∨
      ∃ part, fs' (st.imageAt (hashOf hashing b)) = some (.file part) ∧ part <+: b) ∧
    (host.files (st.imageAt (hashOf hashing b)) = some (.file b) →
      fs' (st.imageAt (hashOf hashing b)) = some (.file b)) := by
  by_cases heq : b = bytes
  · rw [heq]
    exact h.after_begun hS hbegun
  · have hother : fs' (st.imageAt (hashOf hashing b)) = host.files (st.imageAt (hashOf hashing b)) := by
      apply hfiles
      · rw [imageAt_length]
        omega
      · exact fun hat => heq (hinj b bytes hb hS (imageAt_inj hat))
    rw [hother]
    exact ⟨h.begun b hb, fun hwhole => hwhole⟩

/-- **One install.** -/
theorem stored_install {S : List Byte → Prop} {host : Host}
    (hinj : ∀ a b, S a → S b → hashOf hashing a = hashOf hashing b → a = b) {c : Install}
    (hsource : ∀ bytes, c.source = some bytes → S bytes) (h : Stored hashing st S host) :
    Stored hashing st S (imageInstall hashing st c host).2 := by
  rcases imageInstall_cases hashing st c host with ⟨-, hhost⟩ | ⟨image, bytes, hmakes, hstore⟩
  · rw [hhost]
    exact h
  · rw [hstore]
    have hS : S bytes := hsource bytes hmakes.1
    have hhash : image.hash = hashOf hashing bytes := hmakes.2.2.1
    obtain ⟨hfiles, hout⟩ := storeImage_cases st hhash c.env host
    rw [hhash] at hfiles hout
    have hbegun : Begun host.files (storeImage st c.env image bytes host).2.files
        (st.imageAt (hashOf hashing bytes)) bytes := by
      rcases hout with ⟨-, -, hbegun⟩ | ⟨-, -, hdone⟩
      · exact hbegun
      · exact hdone.begun
    have hold : ∀ row ∈ host.db.images, ∃ b, S b ∧ row.hash = hashOf hashing b ∧
        (storeImage st c.env image bytes host).2.files (st.imageAt (hashOf hashing b)) = some (.file b) := by
      intro row hrow
      obtain ⟨b, hb, hrowhash, hfile⟩ := h.whole row hrow
      exact ⟨b, hb, hrowhash, (h.files_after hinj hS hbegun hfiles hb).2 hfile⟩
    constructor
    · exact fun b hb => (h.files_after hinj hS hbegun hfiles hb).1
    · intro row hrow
      rcases hout with ⟨-, hdb, -⟩ | ⟨-, hrows, old, hheld, hfile⟩
      · rw [hdb] at hrow
        exact hold row hrow
      · rw [hrows, mem_upsert] at hrow
        rcases hrow with rfl | ⟨hrow, -⟩
        · rw [Files.overwrite_whole (h.held hS hheld)] at hfile
          exact ⟨bytes, hS, hhash, hfile⟩
        · exact hold row hrow

variable (hashing)

def installAll (st : State) (cs : List Install) (host : Host) : Host :=
  cs.foldl (fun host c => (imageInstall hashing st c host).2) host

/-- **The bytes that a row was installed from**: those of the source of an install that succeeded and made the row. -/
def Created (st : State) (start : Host) (cs : List Install) (row : DiskImage) (bytes : List Byte) : Prop :=
  ∃ pre c post, cs = pre ++ c :: post ∧ (imageInstall hashing st c (installAll hashing st pre start)).1 = .ok () ∧
    c.Makes hashing row bytes

/-- **Every row was installed from some file, and has its bytes.** -/
def Intact (st : State) (start : Host) (cs : List Install) : Prop :=
  ∀ row ∈ (installAll hashing st cs start).db.images,
    (∃ bytes, Created hashing st start cs row bytes) ∧
    ∀ bytes, Created hashing st start cs row bytes →
      (installAll hashing st cs start).files (st.imageFile row) = some (.file bytes)

/-- The files that a run installs. -/
def Source (cs : List Install) (bytes : List Byte) : Prop := ∃ c ∈ cs, c.source = some bytes

/-- The hash tells the byte strings that it is fed in a run apart. -/
def HashInjective (cs : List Install) : Prop :=
  ∀ a b, Source cs a → Source cs b → hashing.shake128 (hashedPart a) = hashing.shake128 (hashedPart b) →
    hashedPart a = hashedPart b

/-- No two files that are installed differ only beyond their first 8 MiB. -/
def DifferEarly (cs : List Install) : Prop :=
  ∀ a b, Source cs a → Source cs b → a.take 8388608 = b.take 8388608 → a = b

/-- No image is installed, and the directory for them is empty. -/
def NoImages (st : State) (start : Host) : Prop :=
  start.db.images = [] ∧
    ∀ name, start.files ((st.base.join "images").resolve ++ [name]) = none

variable {hashing}

theorem installAll_snoc (st : State) (cs : List Install) (c : Install) (host : Host) :
    installAll hashing st (cs ++ [c]) host = (imageInstall hashing st c (installAll hashing st cs host)).2 := by
  unfold installAll
  rw [List.foldl_append, List.foldl_cons, List.foldl_nil]

theorem Created.snoc {start : Host} {cs : List Install} {row : DiskImage} {bytes : List Byte}
    (h : Created hashing st start cs row bytes) (c : Install) : Created hashing st start (cs ++ [c]) row bytes := by
  obtain ⟨pre, c', post, rfl, hok, hmakes⟩ := h
  exact ⟨pre, c', post ++ [c], by simp, hok, hmakes⟩

/-- **Every row was created by an install of the run.** -/
theorem exists_created {start : Host} (hstart : start.db.images = []) (cs : List Install) :
    ∀ row ∈ (installAll hashing st cs start).db.images, ∃ bytes, Created hashing st start cs row bytes := by
  induction cs using List.reverseRecOn with
  | nil =>
    intro row hrow
    rw [show (installAll hashing st [] start).db.images = [] from hstart] at hrow
    cases hrow
  | append_singleton cs c ih =>
    intro row hrow
    rw [installAll_snoc] at hrow
    rcases imageInstall_cases hashing st c (installAll hashing st cs start) with
      ⟨-, hhost⟩ | ⟨image, bytes, hmakes, hstore⟩
    · rw [hhost] at hrow
      obtain ⟨bytes, hcreated⟩ := ih row hrow
      exact ⟨bytes, hcreated.snoc c⟩
    · rw [hstore] at hrow
      have hold : row ∈ (installAll hashing st cs start).db.images →
          ∃ bytes, Created hashing st start (cs ++ [c]) row bytes := by
        intro hrow
        obtain ⟨bytes, hcreated⟩ := ih row hrow
        exact ⟨bytes, hcreated.snoc c⟩
      rcases (storeImage_cases st hmakes.2.2.1 c.env _).2 with ⟨-, hdb, -⟩ | ⟨hok, hrows, -⟩
      · rw [hdb] at hrow
        exact hold hrow
      · rw [hrows, mem_upsert] at hrow
        rcases hrow with rfl | ⟨hrow, -⟩
        · exact ⟨bytes, cs, c, [], rfl, by rw [hstore]; exact hok, hmakes⟩
        · exact hold hrow

theorem stored_installAll {S : List Byte → Prop}
    (hinj : ∀ a b, S a → S b → hashOf hashing a = hashOf hashing b → a = b) {start : Host}
    (hstart : Stored hashing st S start) (cs : List Install) (hcs : ∀ bytes, Source cs bytes → S bytes) :
    Stored hashing st S (installAll hashing st cs start) := by
  induction cs using List.reverseRecOn with
  | nil => exact hstart
  | append_singleton cs c ih =>
    rw [installAll_snoc]
    apply stored_install hinj
    · exact fun bytes hbytes => hcs bytes ⟨c, by simp, hbytes⟩
    · apply ih
      rintro bytes ⟨c', hc', hbytes⟩
      exact hcs bytes ⟨c', by simp [hc'], hbytes⟩

/-- **Installing an image alters no other.**  In every run of installs on an empty image directory, failed ones
included, whose files do not differ only beyond their first 8 MiB, every row has the bytes of the file it was installed
from, when the hash tells apart what it is fed. -/
theorem installs_keep_images {start : Host} {cs : List Install} (hstart : NoImages st start)
    (hhash : HashInjective hashing cs) (hearly : DifferEarly cs) : Intact hashing st start cs := by
  have hinj : ∀ a b, Source cs a → Source cs b → hashOf hashing a = hashOf hashing b → a = b := by
    intro a b ha hb heq
    apply hearly a b ha hb
    have hfed := hhash a b ha hb (hashing.base32_inj _ _ heq)
    unfold hashedPart at hfed
    rw [flatten_firstChunks, flatten_firstChunks] at hfed
    exact hfed
  have hempty : Stored hashing st (Source cs) start := by
    constructor
    · intro bytes _
      have hnone := hstart.2 (hashOf hashing bytes ++ "." ++ "img")
      rw [images_resolve, List.append_assoc] at hnone
      rw [imageAt_hashOf]
      exact Or.inl hnone
    · intro row hrow
      rw [hstart.1] at hrow
      cases hrow
  have hstored := stored_installAll hinj hempty cs (fun _ h => h)
  intro row hrow
  refine ⟨exists_created hstart.1 cs row hrow, ?_⟩
  rintro bytes ⟨pre, c, post, rfl, -, hmakes⟩
  obtain ⟨b, hb, hrowhash, hfile⟩ := hstored.whole row hrow
  have hsource : Source (pre ++ c :: post) bytes := ⟨c, by simp, hmakes.1⟩
  have heq : b = bytes := hinj b bytes hb hsource (by rw [← hrowhash, hmakes.2.2.1])
  rw [heq] at hfile hrowhash
  rw [← hrowhash] at hfile
  exact hfile

/-! ## Two files that differ late -/

/-- An install of some bytes where everything goes well. -/
def sampleInstall (id : Uuid) (bytes : List Byte) : Install :=
  { env := Host.sampleEnv id none, name := some "disk", root := none, mime := .ok "application/octet-stream",
    source := some bytes, mapped := true }

/-- Crockford's base 32 of six bytes. -/
def hashText (digest : BitVec 48) : String := String.ofList (Base32.encode 10 (digest.toNat * 4))

theorem hashText_inj {d d' : BitVec 48} (h : hashText d = hashText d') : d = d' := by
  have hlist : Base32.encode 10 (d.toNat * 4) = Base32.encode 10 (d'.toNat * 4) := by
    have hchars := congrArg String.toList h
    unfold hashText at hchars
    rw [String.toList_ofList, String.toList_ofList] at hchars
    exact hchars
  have hbound : ∀ x : BitVec 48, x.toNat * 4 < 32 ^ 10 := by
    intro x
    have hx := x.isLt
    have hpow : (32 : Nat) ^ 10 = 2 ^ 48 * 4 := by decide
    omega
  have hnat := Base32.encode_inj 10 _ _ (hbound d) (hbound d') hlist
  exact BitVec.eq_of_toNat_eq (by omega)

theorem hashText_chars (d : BitVec 48) : Path.Plain (hashText d) ∧ '.' ∉ (hashText d).toList := by
  have hlist : (hashText d).toList = Base32.encode 10 (d.toNat * 4) := String.toList_ofList
  have hdot : '.' ∉ (hashText d).toList := by
    rw [hlist]
    exact fun h => (Base32.mem_encode h).1 rfl
  have hslash : '/' ∉ (hashText d).toList := by
    rw [hlist]
    exact fun h => (Base32.mem_encode h).2 rfl
  have hne : ∀ text : String, text.toList.length < 10 → hashText d ≠ text := by
    rintro text hlen rfl
    rw [hlist, Base32.length_encode] at hlen
    omega
  exact ⟨⟨hslash, hne _ (by decide), hne _ (by decide), hne _ (by decide)⟩, hdot⟩

/-- The six bytes of SHAKE128 on the two files of the next lemma, and their text. -/
def sampleHashing : Hashing where
  shake128 bytes := if bytes = [1, 2] then 0x6250e3695901 else if bytes = [3] then 0x776915233d1e else 0
  base32 := hashText
  base32_inj _ _ := hashText_inj
  base32_plain d := (hashText_chars d).1
  base32_no_dot d := (hashText_chars d).2

theorem two_images_intact :
    NoImages Host.sampleState Host.emptyHost ∧
    HashInjective sampleHashing [sampleInstall 1 [1, 2], sampleInstall 2 [3]] ∧
    DifferEarly [sampleInstall 1 [1, 2], sampleInstall 2 [3]] ∧
    Intact sampleHashing Host.sampleState Host.emptyHost [sampleInstall 1 [1, 2], sampleInstall 2 [3]] := by
  have hsource : ∀ bytes, Source [sampleInstall 1 [1, 2], sampleInstall 2 [3]] bytes →
      bytes = [1, 2] ∨ bytes = [3] := by
    rintro bytes ⟨c, hc, hbytes⟩
    rcases List.mem_cons.1 hc with rfl | hc
    · exact Or.inl (Option.some.inj hbytes).symm
    · rw [List.mem_singleton.1 hc] at hbytes
      exact Or.inr (Option.some.inj hbytes).symm
  have hempty : NoImages Host.sampleState Host.emptyHost := ⟨rfl, fun _ => rfl⟩
  have hhash : HashInjective sampleHashing [sampleInstall 1 [1, 2], sampleInstall 2 [3]] := by
    intro a b ha hb h
    rcases hsource a ha with rfl | rfl
    · rcases hsource b hb with rfl | rfl
      · rfl
      · exact absurd h (by decide)
    · rcases hsource b hb with rfl | rfl
      · exact absurd h (by decide)
      · rfl
  have hearly : DifferEarly [sampleInstall 1 [1, 2], sampleInstall 2 [3]] := by
    intro a b ha hb h
    rcases hsource a ha with rfl | rfl
    · rcases hsource b hb with rfl | rfl
      · rfl
      · simp at h
    · rcases hsource b hb with rfl | rfl
      · simp at h
      · rfl
  exact ⟨hempty, hhash, hearly, installs_keep_images hempty hhash hearly⟩

/-- The file of an image can be opened when its directory is there, no directory stands in its place and the disk
takes it. -/
theorem openCreate_image {image : DiskImage} {bytes old : List Byte} {host : Host}
    (hhash : image.hash = hashOf hashing bytes) (hdisk : ∀ p, env.disk p = true)
    (hdir : (image.path st env.disk host.files).2 (st.base.join "images").resolve = some .dir)
    (hheld : Files.Held host.files (st.imageAt image.hash) old) :
    (Files.openCreate env.disk (image.path st env.disk host.files).1
      (image.path st env.disk host.files).2).1 = .ok () := by
  have hpath : (image.path st env.disk host.files).1.resolve = st.imageAt image.hash :=
    DiskImage.path_fst st env.disk image host.files
  have hlast : (st.imageAt image.hash).dropLast = (st.base.join "images").resolve := by
    rw [hhash, imageAt_hashOf, images_resolve]
    simp [List.dropLast_append_of_ne_nil]
  apply Files.openCreate_opens
  · rw [hpath, hlast]
    exact Files.isDir_of_dir hdir
  · rw [hpath, path_imageAt hhash]
    rcases hheld with hold | ⟨hold, -⟩
    · simp [hold]
    · simp [hold]
  · exact hdisk _

/-- **A store on a disk that takes everything** writes its source over what stood there, whatever becomes of the row. -/
theorem storeImage_writes {image : DiskImage} {bytes old : List Byte} {host : Host}
    (hhash : image.hash = hashOf hashing bytes) (hdisk : ∀ p, env.disk p = true) (hcopies : env.copyFails = none)
    (hdir : (image.path st env.disk host.files).2 (st.base.join "images").resolve = some .dir)
    (hheld : Files.Held host.files (st.imageAt image.hash) old) :
    ∃ fs', fs' (st.imageAt image.hash) = some (.file (Files.overwrite old bytes)) ∧
      fs' (st.base.join "images").resolve = some .dir ∧
      storeImage st env image bytes host = image.save env { host with files := fs' } := by
  have hne : (st.base.join "images").resolve ≠ st.imageAt image.hash := by
    intro heq
    have hlen := congrArg List.length heq
    rw [State.subdir_length (by decide), hhash, imageAt_length] at hlen
    omega
  have hok : (writeFile env bytes (image.path st env.disk host.files).1 (image.path st env.disk host.files).2).1 =
      .ok () := by
    unfold writeFile
    rw [hcopies]
    unfold Res.andThen
    rw [openCreate_image hhash hdisk hdir hheld]
    rfl
  obtain ⟨hsame, hout⟩ := writeFile_cases env bytes (image.path st env.disk host.files).1
    (image.path st env.disk host.files).2
  rw [DiskImage.path_fst st env.disk image host.files] at hsame hout
  rcases hout with ⟨hfail, -⟩ | ⟨-, old', hheld', hfile⟩
  · exact absurd hok hfail
  · have hold : old' = old := by
      apply Files.Held.unique hheld'
      unfold Files.Held
      rw [show st.imageFile image = st.imageAt image.hash from rfl, path_imageAt hhash]
      exact hheld
    rw [hold] at hfile
    refine ⟨_, hfile, by rw [hsame _ hne]; exact hdir, ?_⟩
    unfold storeImage Host.onFiles
    simp only [hok, Res.mapErr_ok, Res.andThen_ok]

/-- The row of a sample install. -/
def sampleImage (hashing : Hashing) (id : Uuid) (bytes : List Byte) : DiskImage :=
  { id, hash := hashOf hashing bytes, name := "disk", format := .raw, root := none }

theorem makes_sample (hashing : Hashing) (id : Uuid) (bytes : List Byte) :
    (sampleInstall id bytes).Makes hashing (sampleImage hashing id bytes) bytes := by
  have hformat : formatOf "application/octet-stream" = .raw := by decide
  exact ⟨rfl, rfl, rfl, rfl, rfl, "application/octet-stream", rfl, hformat.symm⟩

theorem imageInstall_sample (id : Uuid) (bytes : List Byte) (host : Host) :
    imageInstall hashing st (sampleInstall id bytes) host =
      storeImage st (Host.sampleEnv id none) (sampleImage hashing id bytes) bytes host := rfl

theorem sample_subdir : (Host.sampleState.subdir (fun _ => true) "images" Host.emptyHost.files).2
    (Host.sampleState.base.join "images").resolve = some .dir := by decide

/-- The host after a first install, with the files it left. -/
def oneImage (row : DiskImage) (fs : Files Byte) : Host :=
  { Host.emptyHost with db := { Database.empty with images := [row] }, files := fs }

/-- The first install makes the file and the row. -/
theorem first_install (hashing : Hashing) (a : List Byte) :
    ∃ fs, fs (Host.sampleState.imageAt (hashOf hashing a)) = some (.file a) ∧
      fs (Host.sampleState.base.join "images").resolve = some .dir ∧
      imageInstall hashing Host.sampleState (sampleInstall 1 a) Host.emptyHost =
        (.ok (), oneImage (sampleImage hashing 1 a) fs) := by
  have hstore : ∃ fs, fs (Host.sampleState.imageAt (sampleImage hashing 1 a).hash) =
      some (.file (Files.overwrite [] a)) ∧ fs (Host.sampleState.base.join "images").resolve = some .dir ∧
      storeImage Host.sampleState (Host.sampleEnv 1 none) (sampleImage hashing 1 a) a Host.emptyHost =
        (sampleImage hashing 1 a).save (Host.sampleEnv 1 none) { Host.emptyHost with files := fs } := by
    apply storeImage_writes (show (sampleImage hashing 1 a).hash = hashOf hashing a from rfl)
    · exact fun _ => rfl
    · rfl
    · exact sample_subdir
    · exact Or.inr ⟨rfl, rfl⟩
  obtain ⟨fs, hfile, hdir, hsave⟩ := hstore
  rw [Files.overwrite_whole List.nil_prefix] at hfile
  refine ⟨fs, hfile, hdir, ?_⟩
  rw [imageInstall_sample, hsave]
  rfl

/-- A second install under the same hash writes over the file, and then comes to save its own row. -/
theorem second_install {a b : List Byte} (hsame : hashOf hashing b = hashOf hashing a) {fs : Files Byte}
    (hfile : fs (Host.sampleState.imageAt (hashOf hashing a)) = some (.file a))
    (hdir : fs (Host.sampleState.base.join "images").resolve = some .dir) :
    ∃ fs', fs' (Host.sampleState.imageAt (hashOf hashing a)) = some (.file (Files.overwrite a b)) ∧
      imageInstall hashing Host.sampleState (sampleInstall 2 b) (oneImage (sampleImage hashing 1 a) fs) =
        (sampleImage hashing 2 b).save (Host.sampleEnv 2 none) (oneImage (sampleImage hashing 1 a) fs') := by
  have hstore : ∃ fs', fs' (Host.sampleState.imageAt (sampleImage hashing 2 b).hash) =
      some (.file (Files.overwrite a b)) ∧ fs' (Host.sampleState.base.join "images").resolve = some .dir ∧
      storeImage Host.sampleState (Host.sampleEnv 2 none) (sampleImage hashing 2 b) b
          (oneImage (sampleImage hashing 1 a) fs) =
        (sampleImage hashing 2 b).save (Host.sampleEnv 2 none) (oneImage (sampleImage hashing 1 a) fs') := by
    apply storeImage_writes (show (sampleImage hashing 2 b).hash = hashOf hashing b from rfl)
    · exact fun _ => rfl
    · rfl
    · exact path_keeps Host.sampleState _ (sampleImage hashing 2 b) fs _ _ hdir
    · refine Or.inl ?_
      show fs (Host.sampleState.imageAt (hashOf hashing b)) = some (.file a)
      rw [hsame]
      exact hfile
  obtain ⟨fs', hfile', -, hsave⟩ := hstore
  refine ⟨fs', ?_, by rw [imageInstall_sample, hsave]⟩
  rw [← hsame]
  exact hfile'

/-- **An install after one of a file that is hashed alike** leaves the row of the first with the bytes of the second
over its own. -/
theorem alike_installs {a b : List Byte} (halike : hashedPart a = hashedPart b) :
    (installAll hashing Host.sampleState [sampleInstall 1 a, sampleInstall 2 b] Host.emptyHost).files
        (Host.sampleState.imageFile (sampleImage hashing 1 a)) = some (.file (Files.overwrite a b)) ∧
    sampleImage hashing 1 a ∈
      (installAll hashing Host.sampleState [sampleInstall 1 a, sampleInstall 2 b] Host.emptyHost).db.images ∧
    Created hashing Host.sampleState Host.emptyHost [sampleInstall 1 a, sampleInstall 2 b]
      (sampleImage hashing 1 a) a := by
  have hsame : hashOf hashing b = hashOf hashing a := by
    unfold hashOf
    rw [halike]
  obtain ⟨fs₁, hfile₁, hdir₁, hinstall₁⟩ := first_install hashing a
  obtain ⟨fs₂, hfile₂, hinstall₂⟩ := second_install hsame hfile₁ hdir₁
  have hafter : installAll hashing Host.sampleState [sampleInstall 1 a, sampleInstall 2 b] Host.emptyHost =
      ((sampleImage hashing 2 b).save (Host.sampleEnv 2 none) (oneImage (sampleImage hashing 1 a) fs₂)).2 := by
    unfold installAll
    rw [List.foldl_cons, hinstall₁, List.foldl_cons, List.foldl_nil, hinstall₂]
  have hcreated : Created hashing Host.sampleState Host.emptyHost [sampleInstall 1 a, sampleInstall 2 b]
      (sampleImage hashing 1 a) a :=
    ⟨[], sampleInstall 1 a, [sampleInstall 2 b], rfl, congrArg Prod.fst hinstall₁, makes_sample hashing 1 a⟩
  rw [hafter]
  rcases save_cases (Host.sampleEnv 2 none) (sampleImage hashing 2 b)
    (oneImage (sampleImage hashing 1 a) fs₂) with hsave | ⟨-, hhost⟩
  · have hne : (sampleImage hashing 1 a).id ≠ (sampleImage hashing 2 b).id := show (1 : Uuid) ≠ 2 by decide
    have hmem : sampleImage hashing 1 a ∈
        upsert DiskImage.id (oneImage (sampleImage hashing 1 a) fs₂).db.images (sampleImage hashing 2 b) :=
      mem_upsert.2 (Or.inr ⟨List.mem_singleton.2 rfl, hne⟩)
    rw [hsave]
    exact ⟨hfile₂, hmem, hcreated⟩
  · rw [hhost]
    exact ⟨hfile₂, List.mem_singleton.2 rfl, hcreated⟩

/-- Files that are the same in their first 8 MiB and then differ. -/
def lateFile (last : Byte) : List Byte := List.replicate 8388608 0 ++ [last]

theorem hashedPart_lateFile (last : Byte) : hashedPart (lateFile last) = List.replicate 8388608 0 := by
  unfold hashedPart lateFile
  rw [flatten_firstChunks]
  exact List.take_left' (List.length_replicate)

theorem lateFile_overwrite : Files.overwrite (lateFile 1) (lateFile 2) ≠ lateFile 1 := by
  intro h
  have hlen : ∀ last, (lateFile last).length = 8388608 + 1 := by
    intro last
    unfold lateFile
    rw [List.length_append, List.length_replicate, List.length_singleton]
  unfold Files.overwrite at h
  rw [List.drop_eq_nil_of_le (by rw [hlen, hlen]), List.append_nil] at h
  unfold lateFile at h
  have hlast := List.append_cancel_left h
  exact absurd hlast (by decide)

/-- **A file that differs late writes over the other's**: the second install fails on the hash, and the row of the first
is left with the bytes of the second, whatever the hash function is. -/
theorem install_overwrites_other :
    NoImages Host.sampleState Host.emptyHost ∧
    ∀ hashing, HashInjective hashing [sampleInstall 1 (lateFile 1), sampleInstall 2 (lateFile 2)] ∧
      ¬ Intact hashing Host.sampleState Host.emptyHost
        [sampleInstall 1 (lateFile 1), sampleInstall 2 (lateFile 2)] := by
  refine ⟨⟨rfl, fun _ => rfl⟩, ?_⟩
  intro hashing
  constructor
  · have hsource : ∀ bytes, Source [sampleInstall 1 (lateFile 1), sampleInstall 2 (lateFile 2)] bytes →
        hashedPart bytes = List.replicate 8388608 0 := by
      rintro bytes ⟨c, hc, hbytes⟩
      rcases List.mem_cons.1 hc with rfl | hc
      · rw [← Option.some.inj hbytes, hashedPart_lateFile]
      · rw [List.mem_singleton.1 hc] at hbytes
        rw [← Option.some.inj hbytes, hashedPart_lateFile]
    intro a b ha hb _
    rw [hsource a ha, hsource b hb]
  · intro hintact
    have halike : hashedPart (lateFile 1) = hashedPart (lateFile 2) := by
      rw [hashedPart_lateFile, hashedPart_lateFile]
    obtain ⟨hfile, hrow, hcreated⟩ := alike_installs halike
    have hkept := (hintact _ hrow).2 _ hcreated
    rw [hfile] at hkept
    exact lateFile_overwrite (Node.file.inj (Option.some.inj hkept))

end Install
end Oathgate
