import SensorNode.LineLoss

/-!
The offline queue of data-collector: sending a payload, and the routines that
trim, drain and extend the queue file. A routine is the list of operations it
performs, so that a process dying is a prefix of that list, and a write to a
temporary file carries the bytes handed to stdio, of which a disk may keep only
some. Log messages are left out.
-/

namespace SensorNode.OfflineQueue

open LineStream LineLoss

universe u
variable {σ : Type u}

-- Irreducible, or unifying `lines - maxOfflineLines` counts down a thousand.
@[irreducible] def maxOfflineLines : Nat := 1000

def retryCount : Nat := 3

/-- `fgets` into `char line[8192]`. -/
def lineRoom : Nat := 8190

def readChunks (file : Bytes) : List Bytes := linesOf (lineRoom + 1) file

/-! ## send_to_server -/

structure Request where
  url : Bytes
  headers : List Bytes
  body : Bytes
  deriving DecidableEq

/-- No handle from `curl_easy_init`, a failed transfer, or a response code. -/
inductive Reply where
  | noHandle
  | failed
  | status (code : Int)
  deriving DecidableEq

/-- What a send meets outside the process, with a state of its own. -/
structure Remote (σ : Type u) where
  keyFile : σ → Option Bytes
  answer : σ → Request → Reply × σ

/-- The key is the first line of its file, read by `fgets` into `char key[256]`. -/
def apiKeyHeader (keyFile : Option Bytes) : Bytes :=
  ascii "X-API-Key: " ++
    match keyFile with
    | none => []
    | some content => (chomp (fgets 255 content).1).take 288

def request (keyFile : Option Bytes) (payload url : Bytes) : Request :=
  ⟨url, [ascii "Content-Type: application/json", apiKeyHeader keyFile], payload⟩

def succeeded : Reply → Bool
  | .status code => code == 200 || code == 201
  | .noHandle | .failed => false

def sendToServer (remote : Remote σ) (state : σ) (payload url : Bytes) : Bool × σ :=
  let outcome := remote.answer state (request (remote.keyFile state) payload url)
  (succeeded outcome.1, outcome.2)

/-! ## Operations on the files -/

/-- The temporary file of `trim_offline_queue` or of `drain_offline_queue`. -/
inductive TmpFile where
  | trim
  | drain
  deriving DecidableEq

inductive Op where
  | send (payload : Bytes) (acked : Bool)
  | openTmp (tmp : TmpFile)
  | write (tmp : TmpFile) (bytes : Bytes)
  | closeTmp (tmp : TmpFile)
  | rename (tmp : TmpFile) (done : Bool)
  | unlinkTmp (tmp : TmpFile)
  | unlinkQueue
  | skip (line : Bytes)
  | append (payload : Bytes)
  | drop (payload : Bytes)
  deriving DecidableEq

structure Disk where
  queue : Option Bytes
  trimTmp : Option Marked
  drainTmp : Option Marked
  deriving DecidableEq

def Disk.tmp (disk : Disk) : TmpFile → Option Marked
  | .trim => disk.trimTmp
  | .drain => disk.drainTmp

def Disk.setTmp (disk : Disk) (tmp : TmpFile) (content : Option Marked) : Disk :=
  match tmp with
  | .trim => { disk with trimTmp := content }
  | .drain => { disk with drainTmp := content }

/-- How the disk treats one temporary file: whether `fopen` and `rename` succeed
and which of the bytes written to it land. -/
structure TmpIo where
  opens : Bool
  renames : Bool
  lands : Nat → Bool

def TmpIo.good : TmpIo := ⟨true, true, fun _ => true⟩

def effect (io : TmpIo) (disk : Disk) : Op → Disk
  | .openTmp tmp => disk.setTmp tmp (some [])
  | .write tmp bytes =>
      disk.setTmp tmp ((disk.tmp tmp).map fun marked =>
        marked ++ mark io.lands marked.length bytes)
  | .rename tmp done =>
      match done, disk.tmp tmp with
      | true, some marked => { disk.setTmp tmp none with queue := some (landed marked) }
      | _, _ => disk
  | .unlinkTmp tmp => disk.setTmp tmp none
  | .unlinkQueue => { disk with queue := none }
  | .append payload => { disk with queue := some (disk.queue.getD [] ++ (payload ++ [newline])) }
  | .send _ _ | .closeTmp _ | .skip _ | .drop _ => disk

def perform (io : TmpIo) (disk : Disk) (ops : List Op) : Disk := ops.foldl (effect io) disk

/-! ## trim_offline_queue -/

/-- The code counts in an `int`: the file is taken to have fewer than 2^31 lines. -/
def countLines (file : Option Bytes) : Nat := (file.getD []).count newline

/-- `fputs` writes a line up to its first NUL. -/
def trimLoop : Nat → List Bytes → List Op
  | _, [] => []
  | 0, line :: rest => .write .trim (cstring line) :: trimLoop 0 rest
  | toSkip + 1, line :: rest => .skip line :: trimLoop toSkip rest

def trimOps (io : TmpIo) (file : Option Bytes) : List Op :=
  if countLines file ≤ maxOfflineLines then []
  else if io.opens then
    .openTmp .trim ::
      (trimLoop (countLines file - maxOfflineLines) (readChunks (file.getD [])) ++
        [.closeTmp .trim, .rename .trim io.renames])
  else []

/-! ## drain_offline_queue -/

structure Drained (σ : Type u) where
  ops : List Op
  kept : Nat
  remote : σ

section
variable (remote : Remote σ) (url : Bytes)

/-- The two nested loops; the inner one only copies what is left of the file. -/
def drainLoop : σ → List Bytes → Drained σ
  | state, [] => ⟨[], 0, state⟩
  | state, chunk :: rest =>
      let line := chomp chunk
      if line = [] then drainLoop state rest
      else
        match sendToServer remote state line url with
        | (true, next) =>
            let more := drainLoop next rest
            ⟨.send line true :: more.ops, more.kept, more.remote⟩
        | (false, next) =>
            -- Any failure is taken for an unreachable server, a rejection included.
            ⟨.send line false :: .write .drain (line ++ [newline]) ::
                rest.map fun chunk => .write .drain (cstring chunk),
              1 + rest.length, next⟩

def drainQueue (io : TmpIo) (state : σ) (file : Option Bytes) : Drained σ :=
  match file with
  | none => ⟨[], 0, state⟩
  | some content =>
      if io.opens then
        let loop := drainLoop remote url state (readChunks content)
        -- Neither the writes nor `fclose` are checked before the rename.
        ⟨.openTmp .drain :: (loop.ops ++ .closeTmp .drain ::
            if loop.kept = 0 then [.unlinkQueue, .unlinkTmp .drain]
            else [.rename .drain io.renames]),
          loop.kept, loop.remote⟩
      else ⟨[], 0, state⟩

end

/-! ## The routines composed -/

/-- The collector's files, the operations performed so far and the remote side. -/
structure World (σ : Type u) where
  disk : Disk
  log : List Op
  remote : σ

def World.run (world : World σ) (ops : List Op) : World σ :=
  { world with disk := perform .good world.disk ops, log := world.log ++ ops }

def trimOfflineQueue (world : World σ) : World σ := world.run (trimOps .good world.disk.queue)

/-- What `store_locally` learns from the system: the two `disk_space_ok` checks,
`ensure_parent_dir` and the `fopen` of the queue file. -/
structure StoreIo where
  spaceBefore : Bool
  spaceAfter : Bool
  parentDir : Bool
  opens : Bool
  deriving DecidableEq

/-- Appending, once there is space for it. -/
def storeWithSpace (io : StoreIo) (world : World σ) (payload : Bytes) : World σ :=
  if io.parentDir then
    let trimmed := trimOfflineQueue world
    if io.opens then trimmed.run [.append payload] else trimmed
  else world

def storeLocally (io : StoreIo) (world : World σ) (payload : Bytes) : World σ :=
  if io.spaceBefore then storeWithSpace io world payload
  else
    -- A trim may have freed the space that was missing.
    let trimmed := trimOfflineQueue world
    if io.spaceAfter then storeWithSpace io trimmed payload else trimmed.run [.drop payload]

section
variable (remote : Remote σ) (url payload : Bytes)

/-- Up to `attempts` sends, stopping at the first success. -/
def sendAttempts : Nat → World σ → Bool × World σ
  | 0, world => (false, world)
  | attempts + 1, world =>
      let outcome := sendToServer remote world.remote payload url
      let sent := { world.run [.send payload outcome.1] with remote := outcome.2 }
      if outcome.1 then (true, sent) else sendAttempts attempts sent

def sendWithRetryOrStore (io : StoreIo) (world : World σ) : Bool × World σ :=
  let outcome := sendAttempts remote url payload retryCount world
  if outcome.1 then outcome else (false, storeLocally io outcome.2 payload)

end

def drainOfflineQueue (remote : Remote σ) (url : Bytes) (world : World σ) : World σ :=
  let drained := drainQueue remote url .good world.remote world.disk.queue
  { world.run drained.ops with remote := drained.remote }

/-! ## Operations up to the commit -/

/-- The operation that replaces or removes the queue file. -/
def Op.commits : Op → Bool
  | .rename _ done => done
  | .unlinkQueue => true
  | _ => false

/-- Does the operation leave the queue file alone? -/
def Op.spares : Op → Bool
  | .rename _ done => !done
  | .unlinkQueue | .append _ => false
  | _ => true

/-- What the operation passes to writes of this temporary file. -/
def Op.bytesTo (tmp : TmpFile) : Op → Bytes
  | .write other bytes => if other = tmp then bytes else []
  | _ => []

def bytesTo (tmp : TmpFile) (ops : List Op) : Bytes := ops.flatMap (Op.bytesTo tmp)

/-- An operation of a copy loop: it may only write to this temporary file. -/
def Op.copies (tmp : TmpFile) : Op → Bool
  | .write other _ => decide (other = tmp)
  | .send _ _ | .skip _ => true
  | _ => false

@[simp] theorem setTmp_queue (disk : Disk) (tmp : TmpFile) (content : Option Marked) :
    (disk.setTmp tmp content).queue = disk.queue := by
  cases tmp <;> rfl

@[simp] theorem setTmp_tmp (disk : Disk) (tmp : TmpFile) (content : Option Marked) :
    (disk.setTmp tmp content).tmp tmp = content := by
  cases tmp <;> rfl

@[simp] theorem setTmp_setTmp (disk : Disk) (tmp : TmpFile) (first second : Option Marked) :
    (disk.setTmp tmp first).setTmp tmp second = disk.setTmp tmp second := by
  cases tmp <;> rfl

theorem setTmp_self (disk : Disk) (tmp : TmpFile) (content : Option Marked)
    (same : disk.tmp tmp = content) : disk.setTmp tmp content = disk := by
  subst same
  cases tmp <;> rfl

@[simp] theorem perform_nil (io : TmpIo) (disk : Disk) : perform io disk [] = disk := rfl

@[simp] theorem perform_cons (io : TmpIo) (disk : Disk) (op : Op) (ops : List Op) :
    perform io disk (op :: ops) = perform io (effect io disk op) ops := rfl

theorem perform_append (io : TmpIo) (disk : Disk) (left right : List Op) :
    perform io disk (left ++ right) = perform io (perform io disk left) right :=
  List.foldl_append

theorem effect_spares (io : TmpIo) (disk : Disk) (op : Op) (spares : op.spares = true) :
    (effect io disk op).queue = disk.queue := by
  cases op with
  | rename tmp done =>
      cases done with
      | true => cases spares
      | false => rfl
  | unlinkQueue => cases spares
  | append payload => cases spares
  | _ => simp [effect]

theorem perform_spares (io : TmpIo) (disk : Disk) (ops : List Op)
    (spares : ∀ op ∈ ops, op.spares = true) : (perform io disk ops).queue = disk.queue := by
  induction ops generalizing disk with
  | nil => rfl
  | cons op rest ih =>
      obtain ⟨head, tail⟩ := List.forall_mem_cons.mp spares
      rw [perform_cons, ih _ tail, effect_spares io disk op head]

/-- A copy loop extends its temporary file by the bytes it writes, marked as
they landed, and touches nothing else. -/
theorem perform_copies (io : TmpIo) (tmp : TmpFile) (ops : List Op) (disk : Disk)
    (marked : Marked) (opened : disk.tmp tmp = some marked)
    (copies : ∀ op ∈ ops, op.copies tmp = true) :
    perform io disk ops =
      disk.setTmp tmp (some (marked ++ mark io.lands marked.length (bytesTo tmp ops))) := by
  induction ops generalizing disk marked with
  | nil => simp [bytesTo, mark, setTmp_self disk tmp _ opened]
  | cons op rest ih =>
      obtain ⟨head, tail⟩ := List.forall_mem_cons.mp copies
      have step : effect io disk op = disk.setTmp tmp
          (some (marked ++ mark io.lands marked.length (op.bytesTo tmp))) := by
        cases op with
        | write other bytes =>
            have same : other = tmp := of_decide_eq_true head
            simp [effect, Op.bytesTo, same, opened]
        | send payload acked => simp [effect, Op.bytesTo, mark, setTmp_self disk tmp _ opened]
        | skip line => simp [effect, Op.bytesTo, mark, setTmp_self disk tmp _ opened]
        | _ => cases head
      rw [perform_cons, step, ih _ _ (setTmp_tmp disk tmp _) tail, setTmp_setTmp]
      simp only [bytesTo, List.flatMap_cons, mark_append, List.length_append, mark_length,
        List.append_assoc]

theorem copies_spares (tmp : TmpFile) (op : Op) (copies : op.copies tmp = true) :
    op.spares = true ∧ op.commits = false := by
  cases op with
  | write | send | skip => exact ⟨rfl, rfl⟩
  | _ => cases copies

theorem perform_rewrite (io : TmpIo) (tmp : TmpFile) (ops : List Op) (disk : Disk)
    (copies : ∀ op ∈ ops, op.copies tmp = true) :
    perform io disk (.openTmp tmp :: (ops ++ [.closeTmp tmp, .rename tmp true])) =
      { disk.setTmp tmp none with
        queue := some (landed (mark io.lands 0 (bytesTo tmp ops))) } := by
  rw [perform_cons, effect, perform_append,
    perform_copies io tmp ops _ [] (setTmp_tmp disk tmp _) copies]
  simp [effect]

end SensorNode.OfflineQueue
