import Oathgate.CmdShard
import Oathgate.LibRun
/-!
# CmdShardDirs — the rows of `shards` and their directories

A row is keyed by its id, a directory by the name.  When every deploy is given a plain name that no row has and its
file steps go through, each row has its own directory, and a deletion stays in it (`shards_own_directories`).  A second
deploy of a name leaves a second row for the directory of the first (`second_deploy_shares_directory`).
-/
namespace Oathgate

open Lib Database ShardCmd

namespace State

/-- Where the directory of a shard stands. -/
def shardDir (st : State) (name : String) : Path := ((st.base.join "shards").join name).resolve

/-- Where its kernel (`bin`) and its boot disk (`img`) stand. -/
def shardFile (st : State) (name ext : String) : Path :=
  ((((st.base.join "shards").join name).join name).withExtension ext).resolve

variable {st : State} {name : String}

theorem shardDir_of_plain (h : Path.Plain name) : st.shardDir name = st.base.resolve ++ ["shards", name] := by
  have hshards : st.base.join "shards" = st.base ++ ["shards"] := Path.join_of_plain (by decide) _
  unfold shardDir
  rw [hshards, Path.join_of_plain h, Path.resolve_snoc h.2.2.2, Path.resolve_snoc (by decide), List.append_assoc]
  rfl

theorem shardFile_of_plain (h : Path.Plain name) {ext : String} (hext : 2 ≤ ext.length) :
    st.shardFile name ext = st.shardDir name ++ [Path.stem name ++ "." ++ ext] := by
  unfold shardFile shardDir
  rw [Path.join_of_plain h (Path.join _ name), Path.withExtension_snoc h.2.2.2,
    Path.resolve_snoc (Path.extended_ne hext _)]

/-- Directories of distinct plain names have no path in common. -/
theorem shardDir_disjoint {name' : String} (h : Path.Plain name) (h' : Path.Plain name') (hne : name ≠ name')
    {q : Path} (hq : st.shardDir name <+: q) : ¬ st.shardDir name' <+: q := by
  intro hq'
  rw [shardDir_of_plain h] at hq
  rw [shardDir_of_plain h'] at hq'
  have hpre := List.prefix_of_prefix_length_le hq hq' (by simp)
  have heq := hpre.eq_of_length (by simp)
  simp only [List.append_cancel_left_eq, List.cons.injEq, and_true, true_and] at heq
  exact hne heq

end State

namespace Host

/-- **The directory of a shard is deployed**: it is there, with a kernel and a boot disk in it. -/
def Deployed (st : State) (fs : Files Byte) (name : String) : Prop :=
  fs (st.shardDir name) = some .dir ∧ (∃ b, fs (st.shardFile name "bin") = some (.file b)) ∧
    ∃ b, fs (st.shardFile name "img") = some (.file b)

/-- **What the file steps of a deploy need**: its directory can be made, the installed kernel and image are there, no
file has the name of the kernel's link yet, and the disk takes the link and the whole copy. -/
structure FilesReady (st : State) (env : Env) (fs : Files Byte) (name : String) (kernel : Kernel) (image : DiskImage) :
    Prop where
  dir : Files.Makeable env.disk (st.shardDir name) fs
  kernel : ∃ b, fs (st.kernelFile kernel) = some (.file b)
  image : ∃ b, fs (st.imageFile image) = some (.file b)
  link : fs (st.shardFile name "bin") = none ∧ env.disk (st.shardFile name "bin") = true
  copy : fs (st.shardFile name "img") ≠ some .dir ∧ env.disk (st.shardFile name "img") = true ∧ env.copyFails = none

/-! ## Paths and directories of a deploy -/

variable {st : State} {env : Env} {fs : Files Byte} {name : String}

theorem dir_fst (st : State) (disk : Path → Bool) (name : String) (fs : Files Byte) :
    (Shard.dir st disk name fs).1.resolve = st.shardDir name := by
  unfold Shard.dir
  rw [State.subdir_fst]
  rfl

theorem filePath_fst (ext : String) (st : State) (disk : Path → Bool) (name : String) (fs : Files Byte) :
    (Shard.filePath ext st disk name fs).1.resolve = st.shardFile name ext := by
  unfold Shard.filePath Shard.dir
  rw [State.subdir_fst]
  rfl

theorem adds_shards (st : State) (disk : Path → Bool) (name : String) (fs : Files Byte) :
    Files.Adds (st.base.join "shards").resolve fs (Shard.dir st disk name fs).2 := st.adds_subdir disk "shards" fs

theorem keeps_subdirs (sub : String) (st : State) (disk : Path → Bool) (name : String) (fs : Files Byte) :
    Files.Keeps fs (Shard.dir st disk name (st.subdir disk sub fs).2).2 :=
  (st.adds_subdir disk sub fs).keeps.trans (adds_shards st disk name _).keeps

/-- **The file steps of a deploy lose nothing outside its directory.** -/
theorem keeps_makeDir (st : State) (env : Env) (name : String) (fs : Files Byte) :
    Files.Keeps fs (Shard.makeDir st env name fs).2 :=
  (adds_shards st env.disk name fs).keeps.trans (Files.adds_createDirAll env.disk _ _).keeps

theorem keeps_linkKernel (st : State) (env : Env) (name : String) (kernel : Kernel) (fs : Files Byte) :
    Files.Keeps fs (Shard.linkKernel st env name kernel fs).2 :=
  (keeps_subdirs "kernels" st env.disk name fs).trans (Files.keeps_hardLink env.disk _ _ _)

theorem extends_copyBootDisk (hname : Path.Plain name) (image : DiskImage) (fs : Files Byte) :
    Files.Extends (st.shardDir name) fs (Shard.copyBootDisk st env name image fs).2 := by
  have hunder : st.shardDir name <+: (Shard.bootDiskPath st env.disk name (image.path st env.disk fs).2).1.resolve := by
    rw [Shard.bootDiskPath, filePath_fst, State.shardFile_of_plain hname (by decide)]
    exact List.prefix_append _ _
  apply (keeps_subdirs "images" st env.disk name fs).extends.trans
  exact Files.extends_copy hunder env.disk env.copyFails _ _

theorem extends_removeDir (st : State) (env : Env) (name : String) (fs : Files Byte) :
    Files.Extends (st.shardDir name) fs (Shard.removeDir st env name fs).2 := by
  have hremove := Files.extends_removeDirAll env.removeFails (Shard.dir st env.disk name fs).1
    (Shard.dir st env.disk name fs).2
  rw [dir_fst] at hremove
  exact (adds_shards st env.disk name fs).keeps.extends.trans hremove

theorem extends_deploy {host : Host} {shard : Shard} (hname : Path.Plain shard.name) :
    Files.Extends (st.shardDir shard.name) host.files (shard.deploy st env host).2.files := by
  apply Res.andThen_keeps (P := fun h : Host => Files.Extends (st.shardDir shard.name) host.files h.files)
  · exact (keeps_makeDir st env shard.name host.files).extends
  intro _ s hs
  apply Res.andThen_keeps (P := fun h : Host => Files.Extends (st.shardDir shard.name) host.files h.files)
  · exact hs.trans (keeps_linkKernel st env shard.name shard.kernel s.files).extends
  intro _ s hs
  exact hs.trans (extends_copyBootDisk hname shard.bootDisk s.files)

theorem deploy_db (st : State) (env : Env) (shard : Shard) (host : Host) :
    (shard.deploy st env host).2.db = host.db := by
  apply Res.andThen_keeps (P := fun h : Host => h.db = host.db) rfl
  intro _ s hs
  apply Res.andThen_keeps (P := fun h : Host => h.db = host.db) hs
  intro _ s hs
  exact hs

/-! ## A deploy that goes through -/

theorem shardDir_length (hname : Path.Plain name) : (st.shardDir name).length = st.base.resolve.length + 2 := by
  rw [State.shardDir_of_plain hname, List.length_append]
  rfl

theorem shardFile_length (hname : Path.Plain name) {ext : String} (hext : 2 ≤ ext.length) :
    (st.shardFile name ext).length = st.base.resolve.length + 3 := by
  rw [State.shardFile_of_plain hname hext, List.length_append, shardDir_length hname]
  rfl

/-- The boot disk stands under neither the directory nor the kernel. -/
theorem not_under_bootDisk (st : State) (hname : Path.Plain name) :
    ¬ st.shardFile name "img" <+: st.shardDir name ∧ ¬ st.shardFile name "img" <+: st.shardFile name "bin" := by
  constructor
  · intro h
    have hlen := h.length_le
    rw [shardFile_length hname (by decide), shardDir_length hname] at hlen
    omega
  · intro h
    have heq := h.eq_of_length (by rw [shardFile_length hname (by decide), shardFile_length hname (by decide)])
    rw [State.shardFile_of_plain hname (by decide), State.shardFile_of_plain hname (by decide)] at heq
    simp only [List.append_cancel_left_eq, List.cons.injEq, and_true] at heq
    have hchars := congrArg String.toList heq
    simp [String.toList_append] at hchars

theorem makeDir_ok (hname : Path.Plain name) (h : Files.Makeable env.disk (st.shardDir name) fs) :
    (Shard.makeDir st env name fs).1 = .ok () ∧ (Shard.makeDir st env name fs).2 (st.shardDir name) = some .dir ∧
      ∀ q, st.base.resolve.length + 2 < q.length → (Shard.makeDir st env name fs).2 q = fs q := by
  have hadds := adds_shards st env.disk name fs
  have hmk := h.adds hadds
  rw [← dir_fst st env.disk name fs] at hmk
  have hne : (Shard.dir st env.disk name fs).1.resolve ≠ [] := by
    rw [dir_fst, State.shardDir_of_plain hname]
    simp
  obtain ⟨hok, hdir⟩ := Files.createDirAll_ok hmk hne
  rw [dir_fst] at hdir
  refine ⟨hok, hdir, ?_⟩
  intro q hq
  have hcreate := Files.adds_createDirAll env.disk (Shard.dir st env.disk name fs).1 (Shard.dir st env.disk name fs).2
  rw [dir_fst] at hcreate
  have hdirs : (Shard.makeDir st env name fs).2 q = (Shard.dir st env.disk name fs).2 q :=
    hcreate.of_long (by rw [shardDir_length hname]; exact hq)
  rw [hdirs]
  exact hadds.of_long (by rw [State.subdir_length (by decide)]; omega)

/-- The files of a shard are too deep to be touched when directories of the tool are made. -/
theorem shardFile_subdirs (hname : Path.Plain name) {sub : String} (hsub : Path.Plain sub) {ext : String}
    (hext : 2 ≤ ext.length) (st : State) (disk : Path → Bool) (fs : Files Byte) :
    (Shard.dir st disk name (st.subdir disk sub fs).2).2 (st.shardFile name ext) = fs (st.shardFile name ext) := by
  rw [(adds_shards st disk name _).of_long
    (by rw [State.subdir_length (by decide), shardFile_length hname hext]; omega)]
  exact (st.adds_subdir disk sub fs).of_long (by rw [State.subdir_length hsub, shardFile_length hname hext]; omega)

theorem linkKernel_ok (hname : Path.Plain name) {kernel : Kernel} {b : List Byte}
    (hdir : fs (st.shardDir name) = some .dir) (hsrc : fs (st.kernelFile kernel) = some (.file b))
    (hlink : fs (st.shardFile name "bin") = none) (hdisk : env.disk (st.shardFile name "bin") = true) :
    (Shard.linkKernel st env name kernel fs).1 = .ok () ∧
      (Shard.linkKernel st env name kernel fs).2 (st.shardFile name "bin") = some (.file b) ∧
      (Shard.linkKernel st env name kernel fs).2 (st.shardFile name "img") = fs (st.shardFile name "img") := by
  have hkeeps := keeps_subdirs "kernels" st env.disk name fs
  have hpath := Kernel.path_fst st env.disk kernel fs
  have hdst := filePath_fst "bin" st env.disk name (st.subdir env.disk "kernels" fs).2
  have hlinked : Shard.linkKernel st env name kernel fs =
      (.ok (), ((Shard.dir st env.disk name (st.subdir env.disk "kernels" fs).2).2).put (st.shardFile name "bin")
        (.file b)) := by
    rw [← hdst]
    apply Files.hardLink_ok
    · rw [hpath]
      exact hkeeps _ _ hsrc
    · rw [Shard.kernelPath, filePath_fst, State.shardFile_of_plain hname (by decide), List.dropLast_concat]
      exact Files.isDir_of_dir (hkeeps _ _ hdir)
    · rw [Shard.kernelPath, filePath_fst]
      exact (shardFile_subdirs hname (by decide) (by decide) st env.disk fs).trans hlink
    · rw [Shard.kernelPath, filePath_fst]
      exact hdisk
  have hne : st.shardFile name "img" ≠ st.shardFile name "bin" := by
    intro heq
    have hunder := (not_under_bootDisk st hname).2
    rw [heq] at hunder
    exact hunder (List.prefix_refl _)
  rw [hlinked]
  refine ⟨rfl, Files.put_self _ _ _, ?_⟩
  exact (Files.put_of_ne hne _ _).trans (shardFile_subdirs hname (by decide) (by decide) st env.disk fs)

theorem copyBootDisk_ok (hname : Path.Plain name) {image : DiskImage} {b : List Byte}
    (hdir : fs (st.shardDir name) = some .dir) (hsrc : fs (st.imageFile image) = some (.file b))
    (hdst : fs (st.shardFile name "img") ≠ some .dir) (hdisk : env.disk (st.shardFile name "img") = true)
    (hcopied : env.copyFails = none) :
    (Shard.copyBootDisk st env name image fs).1 = .ok () ∧
      (Shard.copyBootDisk st env name image fs).2 (st.shardFile name "img") = some (.file b) ∧
      Files.Extends (st.shardFile name "img") fs (Shard.copyBootDisk st env name image fs).2 := by
  have hkeeps := keeps_subdirs "images" st env.disk name fs
  have hpath := DiskImage.path_fst st env.disk image fs
  have hfile := filePath_fst "img" st env.disk name (st.subdir env.disk "images" fs).2
  have hextends : Files.Extends (st.shardFile name "img") fs (Shard.copyBootDisk st env name image fs).2 := by
    apply hkeeps.extends.trans
    apply Files.extends_copy
    rw [← hfile]
    exact List.prefix_refl _
  have hcopy : (Shard.copyBootDisk st env name image fs).1 = .ok () ∧
      (Shard.copyBootDisk st env name image fs).2
        (Shard.filePath "img" st env.disk name (st.subdir env.disk "images" fs).2).1.resolve = some (.file b) := by
    unfold Shard.copyBootDisk
    rw [hcopied]
    apply Files.copy_ok
    · rw [hpath]
      exact hkeeps _ _ hsrc
    · rw [Shard.bootDiskPath, filePath_fst, State.shardFile_of_plain hname (by decide), List.dropLast_concat]
      exact Files.isDir_of_dir (hkeeps _ _ hdir)
    · rw [Shard.bootDiskPath, filePath_fst]
      intro hnode
      exact hdst ((shardFile_subdirs hname (by decide) (by decide) st env.disk fs).symm.trans hnode)
    · rw [Shard.bootDiskPath, filePath_fst]
      exact hdisk
  rw [hfile] at hcopy
  exact ⟨hcopy.1, hcopy.2, hextends⟩

theorem onFiles_ok {host : Host} {f : Files Byte → Res IoError Unit × Files Byte} (h : (f host.files).1 = .ok ()) :
    host.onFiles f = (.ok (), { host with files := (f host.files).2 }) := by
  unfold onFiles
  rw [h]
  rfl

/-- **A deploy whose file steps find what they need goes through**, and leaves its directory deployed. -/
theorem deploy_ok {host : Host} {shard : Shard} (hname : Path.Plain shard.name)
    (h : FilesReady st env host.files shard.name shard.kernel shard.bootDisk) :
    (shard.deploy st env host).1 = .ok () ∧ Deployed st (shard.deploy st env host).2.files shard.name := by
  obtain ⟨hdir, ⟨k, hkernel⟩, ⟨i, himage⟩, ⟨hfree, hlinkDisk⟩, hnotDir, hcopyDisk, hcopied⟩ := h
  obtain ⟨hok₁, hdir₁, hlong₁⟩ := makeDir_ok hname hdir
  have hkeeps₁ := keeps_makeDir st env shard.name host.files
  have hfile₁ : ∀ ext, 2 ≤ ext.length → (Shard.makeDir st env shard.name host.files).2 (st.shardFile shard.name ext) =
      host.files (st.shardFile shard.name ext) := by
    intro ext hext
    exact hlong₁ _ (by rw [shardFile_length hname hext]; omega)
  obtain ⟨hok₂, hbin₂, himg₂⟩ := linkKernel_ok hname hdir₁ (hkeeps₁ _ _ hkernel)
    ((hfile₁ "bin" (by decide)).trans hfree) hlinkDisk
  have hkeeps₂ := keeps_linkKernel st env shard.name shard.kernel (Shard.makeDir st env shard.name host.files).2
  obtain ⟨hok₃, himg₃, hextends₃⟩ := copyBootDisk_ok hname (hkeeps₂ _ _ hdir₁)
    (hkeeps₂ _ _ (hkeeps₁ _ _ himage)) (by rw [himg₂, hfile₁ "img" (by decide)]; exact hnotDir) hcopyDisk hcopied
  have hdeploy : shard.deploy st env host = (.ok (), { host with
      files := (Shard.copyBootDisk st env shard.name shard.bootDisk (Shard.linkKernel st env shard.name shard.kernel
        (Shard.makeDir st env shard.name host.files).2).2).2 }) := by
    unfold Shard.deploy
    rw [onFiles_ok hok₁, Res.andThen_ok, onFiles_ok hok₂, Res.andThen_ok, onFiles_ok hok₃]
  obtain ⟨hunder, hunder'⟩ := not_under_bootDisk st hname
  rw [hdeploy]
  exact ⟨rfl, hextends₃ _ _ (hkeeps₂ _ _ hdir₁) hunder, ⟨k, hextends₃ _ _ hbin₂ hunder'⟩, ⟨i, himg₃⟩⟩

/-! ## One command -/

/-- **What a deploy has to find.**  When it comes to save its row, its name is one plain file name that no row has, and
its file steps find what they need. -/
def Deployable (st : State) (env : Env) (opts : DeployOpts) (host : Host) : Prop :=
  ∀ name image kernel, env.nameOr opts.name = .ok name → DiskImage.get opts.image host.db = .ok image →
    chooseKernel opts host.db = .ok kernel → env.read = true →
    (∃ devices, (Device.getMany env opts.network host).1 = .ok devices) →
    confirm st env "Deploy Shard?" = .ok () → env.saved = true →
    Path.Plain name ∧ (∀ row ∈ host.db.shards, row.name ≠ name) ∧ FilesReady st env host.files name kernel image

/-- **A deploy that finds what it has to either changes nothing, or adds one row and its directory.** -/
theorem shardDeploy_spec {opts : DeployOpts} {host : Host} (hfresh : ∀ row ∈ host.db.shards, row.id ≠ env.id)
    (h : Deployable st env opts host) :
    ((shardDeploy st env opts host).1 ≠ .ok () ∧ (shardDeploy st env opts host).2 = host) ∨
      ∃ row : ShardRow, Path.Plain row.name ∧ (∀ r ∈ host.db.shards, r.name ≠ row.name) ∧
        (shardDeploy st env opts host).1 = .ok () ∧
        (shardDeploy st env opts host).2.db.shards = host.db.shards ++ [row] ∧
        Files.Extends (st.shardDir row.name) host.files (shardDeploy st env opts host).2.files ∧
        Deployed st (shardDeploy st env opts host).2.files row.name := by
  rcases shardDeploy_cases st env opts host with
    ⟨hstop, hhost⟩ | ⟨name, image, kernel, hname, hread, himage, hkernel, hdevices, hconfirm, hsaves⟩
  · exact Or.inl ⟨hstop (), hhost⟩
  · rw [hsaves]
    unfold Shard.save
    rw [transaction_update]
    cases hsaved : env.saved with
    | false => exact Or.inl ⟨fun h => (by cases h), rfl⟩
    | true =>
      obtain ⟨hplain, hnew, hfiles⟩ := h name image kernel hname himage hkernel hread hdevices hconfirm hsaved
      let shard : Shard := build env name opts kernel image
      let saved : Host :=
        { host with db := { host.db with shards := upsert ShardRow.id host.db.shards shard.toRow } }
      have hdeploy : (shard.deploy st env saved).1 = .ok () ∧
          Deployed st (shard.deploy st env saved).2.files shard.name := deploy_ok hplain hfiles
      have hrows : (shard.deploy st env saved).2.db.shards = host.db.shards ++ [shard.toRow] := by
        rw [deploy_db]
        exact upsert_of_new hfresh
      have hextends : Files.Extends (st.shardDir shard.name) saved.files (shard.deploy st env saved).2.files :=
        extends_deploy hplain
      exact Or.inr ⟨shard.toRow, hplain, hnew, hdeploy.1, hrows, hextends, hdeploy.2⟩

/-- The outcomes of a deletion: nothing changed, or one row with the name is gone and nothing outside its directory. -/
def DeleteOutcome (st : State) (name : String) (host host' : Host) : Prop :=
  host' = host ∨ ∃ row ∈ host.db.shards, row.name = name ∧
    host'.db.shards = deleteKey ShardRow.id host.db.shards row.id ∧
    Files.Extends (st.shardDir name) host.files host'.files

theorem shardDelete_cases (st : State) (env : Env) (name : String) (host : Host) :
    DeleteOutcome st name host (shardDelete st env name host).2 := by
  refine Res.andThen_cases (P := fun x => DeleteOutcome st name host x.2) ?_
    (fun _ _ => Or.inl (getShard_host env name host))
  intro shard s hget
  obtain ⟨rfl, -, row, kernel, image, hfind, hload⟩ := getShard_ok hget
  obtain ⟨-, hid, hshard⟩ := Shard.fromRow_ok hload
  obtain ⟨hrow, hname⟩ := Shard.find_mem hfind
  by_cases hrun : shard.isRunning = true
  · rw [if_pos hrun]
    exact Or.inl rfl
  · rw [if_neg hrun]
    refine Res.andThen_cases (P := fun x => DeleteOutcome st name s x.2) ?_ (fun _ _ => Or.inl rfl)
    intro _ s' hconfirm
    obtain ⟨-, rfl⟩ := Prod.mk.inj hconfirm
    unfold Shard.purge Shard.delete
    rw [transaction_update]
    cases env.deleted with
    | false => exact Or.inl rfl
    | true =>
      refine Or.inr ⟨row, hrow, hname, ?_, ?_⟩
      · rw [← hid]
        rfl
      · rw [← hname, ← hshard]
        exact extends_removeDir st env shard.name s.files

/-! ## Whole runs -/

inductive ShardOp where
  | deploy (opts : DeployOpts)
  | delete (name : String)

def shardExecute (st : State) (env : Env) (host : Host) : ShardOp → Res AppError Unit × Host
  | .deploy opts => shardDeploy st env opts host
  | .delete name => shardDelete st env name host

/-- A command with what it finds; a generated id is the id of no row. -/
def ShardStep (st : State) (host : Host) (l : Env × ShardOp) (host' : Host) : Prop :=
  (∀ row ∈ host.db.shards, row.id ≠ l.1.id) ∧ host' = (host.shardExecute st l.1 l.2).2

/-- A step whose deploy finds what it has to. -/
def ReadyStep (st : State) (host : Host) (l : Env × ShardOp) (host' : Host) : Prop :=
  ShardStep st host l host' ∧ ∀ opts, l.2 = .deploy opts → Deployable st l.1 opts host

/-- **The invariant**: distinct plain names, and a deployed directory for each. -/
structure OwnDirs (st : State) (host : Host) : Prop where
  names : (host.db.shards.map ShardRow.name).Nodup
  plain : ∀ row ∈ host.db.shards, Path.Plain row.name
  deployed : ∀ row ∈ host.db.shards, Deployed st host.files row.name

/-- What stands under the directory of one name is outside that of another. -/
theorem under_extends {name' : String} (hname : Path.Plain name) (hname' : Path.Plain name') (hne : name ≠ name')
    {fs' : Files Byte} (h : Files.Extends (st.shardDir name') fs fs') {q : Path} (hq : st.shardDir name <+: q)
    {n : Node Byte} (hn : fs q = some n) : fs' q = some n :=
  h q n hn (State.shardDir_disjoint hname hname' hne hq)

theorem Deployed.extends {name' : String} (hname : Path.Plain name) (hname' : Path.Plain name') (hne : name ≠ name')
    {fs' : Files Byte} (h : Files.Extends (st.shardDir name') fs fs') (hdep : Deployed st fs name) :
    Deployed st fs' name := by
  obtain ⟨hdir, ⟨k, hkernel⟩, ⟨i, himage⟩⟩ := hdep
  have hunder : ∀ ext : String, 2 ≤ ext.length → st.shardDir name <+: st.shardFile name ext := by
    intro ext hext
    rw [State.shardFile_of_plain hname hext]
    exact List.prefix_append _ _
  exact ⟨under_extends hname hname' hne h (List.prefix_refl _) hdir,
    ⟨k, under_extends hname hname' hne h (hunder "bin" (by decide)) hkernel⟩,
    ⟨i, under_extends hname hname' hne h (hunder "img" (by decide)) himage⟩⟩

theorem ownDirs_deploy {opts : DeployOpts} {host : Host} (hown : OwnDirs st host)
    (hfresh : ∀ row ∈ host.db.shards, row.id ≠ env.id) (h : Deployable st env opts host) :
    OwnDirs st (shardDeploy st env opts host).2 := by
  rcases shardDeploy_spec hfresh h with ⟨-, hhost⟩ | ⟨new, hplain, hnew, -, hrows, hextends, hdeployed⟩
  · rw [hhost]
    exact hown
  · refine ⟨?_, ?_, ?_⟩
    · rw [hrows, List.map_append, List.map_singleton, List.nodup_append]
      refine ⟨hown.names, List.nodup_singleton _, ?_⟩
      intro name hname name' hname'
      obtain ⟨row, hrow, rfl⟩ := List.mem_map.1 hname
      rw [List.mem_singleton.1 hname']
      exact hnew row hrow
    · intro row hrow
      rw [hrows, List.mem_append, List.mem_singleton] at hrow
      rcases hrow with hrow | rfl
      · exact hown.plain row hrow
      · exact hplain
    · intro row hrow
      rw [hrows, List.mem_append, List.mem_singleton] at hrow
      rcases hrow with hrow | rfl
      · exact (hown.deployed row hrow).extends (hown.plain row hrow) hplain (hnew row hrow) hextends
      · exact hdeployed

theorem ownDirs_delete {host : Host} (hown : OwnDirs st host) (env : Env) (name : String) :
    OwnDirs st (shardDelete st env name host).2 := by
  rcases shardDelete_cases st env name host with hhost | ⟨gone, hgone, rfl, hrows, hextends⟩
  · rw [hhost]
    exact hown
  · refine ⟨?_, ?_, ?_⟩
    · rw [hrows]
      exact hown.names.sublist (List.filter_sublist.map _)
    · intro row hrow
      rw [hrows, mem_deleteKey] at hrow
      exact hown.plain row hrow.1
    · intro row hrow
      rw [hrows, mem_deleteKey] at hrow
      have hne : row.name ≠ gone.name := by
        intro heq
        exact hrow.2 (congrArg ShardRow.id (eq_of_key_eq hown.names hrow.1 hgone heq))
      exact (hown.deployed row hrow.1).extends (hown.plain row hrow.1) (hown.plain gone hgone) hne hextends

theorem ownDirs_step {l : Env × ShardOp} {host host' : Host} (hown : OwnDirs st host)
    (hstep : ReadyStep st host l host') : OwnDirs st host' := by
  obtain ⟨env, op⟩ := l
  obtain ⟨⟨hfresh, rfl⟩, hready⟩ := hstep
  cases op with
  | deploy opts => exact ownDirs_deploy hown hfresh (hready opts rfl)
  | delete name => exact ownDirs_delete hown env name

/-- **Shards have their own directories**, in every run of deploys and deletions from no shards whose deploys find what
they have to: the names are distinct, each row has a deployed directory, and no path is under two of them.  A deletion
then loses nothing under the directory of another shard, and a deploy that fails leaves the rows as they were. -/
theorem shards_own_directories {start host : Host} {ops : List (Env × ShardOp)} (hstart : start.db.shards = [])
    (hrun : Run (ReadyStep st) start ops host) :
    (host.db.shards.map ShardRow.name).Nodup ∧
    (∀ row ∈ host.db.shards, Deployed st host.files row.name) ∧
    (∀ row ∈ host.db.shards, ∀ row' ∈ host.db.shards, row ≠ row' →
      ∀ q, st.shardDir row.name <+: q → ¬ st.shardDir row'.name <+: q) ∧
    (∀ env name, ∀ row ∈ host.db.shards, row.name ≠ name → ∀ q n, st.shardDir row.name <+: q →
      host.files q = some n → (shardDelete st env name host).2.files q = some n) ∧
    (∀ env opts, (∀ row ∈ host.db.shards, row.id ≠ env.id) → Deployable st env opts host →
      (shardDeploy st env opts host).1 ≠ .ok () →
      (shardDeploy st env opts host).2.db.shards = host.db.shards) := by
  have hempty : OwnDirs st start := by
    refine ⟨by rw [hstart]; exact List.nodup_nil, ?_, ?_⟩
    · intro row hrow
      rw [hstart] at hrow
      cases hrow
    · intro row hrow
      rw [hstart] at hrow
      cases hrow
  have hown : OwnDirs st host :=
    Run.invariant (I := fun _ => OwnDirs st) hempty (fun _ _ _ _ _ h hstep => ownDirs_step h hstep) hrun
  refine ⟨hown.names, hown.deployed, ?_, ?_, ?_⟩
  · intro row hrow row' hrow' hne q hq
    have hnames : row.name ≠ row'.name := fun heq => hne (eq_of_key_eq hown.names hrow hrow' heq)
    exact State.shardDir_disjoint (hown.plain row hrow) (hown.plain row' hrow') hnames hq
  · intro env name row hrow hne q n hq hn
    rcases shardDelete_cases st env name host with hhost | ⟨gone, hgone, rfl, -, hextends⟩
    · rw [hhost]
      exact hn
    · exact under_extends (hown.plain row hrow) (hown.plain gone hgone) hne hextends hq hn
  · intro env opts hfresh hready hfail
    rcases shardDeploy_spec hfresh hready with ⟨-, hhost⟩ | ⟨-, -, -, hok, -⟩
    · rw [hhost]
    · exact absurd hok hfail

/-! ## A name that is deployed twice -/

/-- One kernel and one image are installed. -/
def stockedHost : Host :=
  { db := { Database.empty with
      kernels := [⟨1, "K", "linux", "6.9.1", true⟩]
      images := [⟨2, "I", "disk", .raw, none⟩] }
    files := fun p => (List.lookup p
      [(["oathgate"], .dir), (["oathgate", "kernels"], .dir), (["oathgate", "kernels", "K.bin"], .file [1]),
        (["oathgate", "images"], .dir), (["oathgate", "images", "I.img"], .file [2])])
    alive := [] }

def sampleOpts : DeployOpts :=
  { name := some "web", image := "disk", kernel := none, memory := 512, cpu := "q35", network := [] }

/-- The host after the first deploy. -/
def deployedHost : Host := (stockedHost.shardExecute sampleState (sampleEnv 10 none) (.deploy sampleOpts)).2

theorem deployable_sample : Deployable sampleState (sampleEnv 10 none) sampleOpts stockedHost := by
  intro name image kernel hname himage hkernel _ _ _ _
  cases hname
  cases himage
  cases hkernel
  refine ⟨by decide, fun _ h => (by cases h), ?_⟩
  exact ⟨by decide, ⟨[1], by decide⟩, ⟨[2], by decide⟩, by decide, by decide⟩

/-- A second shard, under a name of its own. -/
def otherOpts : DeployOpts := { sampleOpts with name := some "db" }

/-- The host after both deploys. -/
def twoShards : Host := (deployedHost.shardExecute sampleState (sampleEnv 11 none) (.deploy otherOpts)).2

theorem deployable_other : Deployable sampleState (sampleEnv 11 none) otherOpts deployedHost := by
  intro name image kernel hname himage hkernel _ _ _ _
  cases hname
  cases himage
  cases hkernel
  refine ⟨by decide, by decide, ?_⟩
  exact ⟨by decide, ⟨[1], by decide⟩, ⟨[2], by decide⟩, by decide, by decide⟩

/-- Two shards are deployed and the first is deleted again. -/
def sampleOps : List (Env × ShardOp) :=
  [(sampleEnv 10 none, .deploy sampleOpts), (sampleEnv 11 none, .deploy otherOpts), (sampleEnv 12 none, .delete "web")]

/-- The host after all three commands. -/
def remainingHost : Host := (twoShards.shardExecute sampleState (sampleEnv 12 none) (.delete "web")).2

theorem run_sampleOps : Run (ReadyStep sampleState) stockedHost sampleOps remainingHost := by
  refine Run.cons (t := deployedHost) ⟨⟨by decide, rfl⟩, ?_⟩ ?_
  · intro opts h
    cases h
    exact deployable_sample
  refine Run.cons (t := twoShards) ⟨⟨by decide, rfl⟩, ?_⟩ ?_
  · intro opts h
    cases h
    exact deployable_other
  refine Run.single ⟨⟨by decide, rfl⟩, ?_⟩
  intro opts h
  cases h

theorem own_directories_of_two : stockedHost.db.shards = [] ∧
    Run (ReadyStep sampleState) stockedHost sampleOps remainingHost ∧
    twoShards.db.shards.map ShardRow.name = ["web", "db"] ∧ remainingHost.db.shards.map ShardRow.name = ["db"] ∧
    (∀ row ∈ remainingHost.db.shards, Deployed sampleState remainingHost.files row.name) ∧
    remainingHost.files (sampleState.shardDir "web") = none :=
  ⟨rfl, run_sampleOps, by decide, by decide, (shards_own_directories rfl run_sampleOps).2.1, by decide⟩

/-- **A second deploy of a name** returns an error, and leaves a second row for the directory of the first. -/
theorem second_deploy_shares_directory :
    (deployedHost.shardExecute sampleState (sampleEnv 11 none) (.deploy sampleOpts)).1 = .err .io ∧
    ¬ ∀ host, Run (ShardStep sampleState) stockedHost
      [(sampleEnv 10 none, .deploy sampleOpts), (sampleEnv 11 none, .deploy sampleOpts)] host →
        (host.db.shards.map ShardRow.name).Nodup := by
  refine ⟨by decide, ?_⟩
  intro h
  have hnodup := h _ (Run.cons (t := deployedHost) ⟨by decide, rfl⟩ (Run.single ⟨by decide, rfl⟩))
  exact absurd hnodup (by decide)

end Host
end Oathgate
