import SensorNode.UrlUpdater
import Mathlib.Logic.Function.Basic

/-!
Whole histories of `url-updater`: any runs of the script, one after another, with the notifications
they send. A file carries the URL of the last run that named its service, as if that run had been
the only one, and the service is told after its file has been written.
-/

namespace SensorNode.UpdateHistory

open LineStream TextRows ConfigLoad UrlUpdater

/-! ## Rows of a file written twice -/

theorem rowsOf_row (text rest : Bytes) (plain : newline ∉ text) :
    rowsOf (text ++ newline :: rest) = (text ++ [newline]) :: rowsOf rest := by
  induction text with
  | nil => rfl
  | cons byte text ih =>
      rw [List.mem_cons, not_or] at plain
      rw [List.cons_append, rowsOf, if_neg (Ne.symm plain.1), ih plain.2]
      rfl

theorem rowsOf_open (text : Bytes) (plain : newline ∉ text) : rowsOf text = [text] := by
  induction text with
  | nil => rfl
  | cons byte text ih =>
      rw [List.mem_cons, not_or] at plain
      rw [rowsOf, if_neg (Ne.symm plain.1), ih plain.2]

theorem rowsOf_flatten (rows texts : List Bytes) (last : Bytes) (shaped : Shaped rows texts last) :
    rowsOf rows.flatten = rows := by
  obtain ⟨rfl, plain, lastPlain⟩ := shaped
  induction texts with
  | nil => simpa using rowsOf_open last lastPlain
  | cons text texts ih =>
      obtain ⟨head, tail⟩ := List.forall_mem_cons.mp plain
      have rest := ih tail
      simp only [List.map_cons, List.cons_append, List.flatten_cons, List.append_assoc,
        List.nil_append] at rest ⊢
      rw [rowsOf_row text _ head, rest]

theorem rowsOf_edited (edit : Bytes → Bytes)
    (free : ∀ text, newline ∉ text → newline ∉ edit text) (file : Bytes) :
    rowsOf ((rowsOf file).flatMap (editRow edit)) = (rowsOf file).map (editRow edit) := by
  obtain ⟨texts, last, shaped⟩ := rowsOf_shaped file
  exact rowsOf_flatten _ _ _ (shaped_edit edit free shaped)

theorem rowsOf_appended (file more : Bytes) (ended : unfinished file = []) :
    ∃ rows, rowsOf file = rows ++ [[]] ∧ rowsOf (file ++ more) = rows ++ rowsOf more := by
  obtain ⟨texts, last, shape, plain, -⟩ := rowsOf_shaped file
  have lastIs : last = [] := by
    rw [unfinished, shape] at ended
    simpa using ended
  rw [lastIs] at shape
  refine ⟨_, shape, ?_⟩
  have joined := flatten_rowsOf file
  rw [shape] at joined
  rw [← joined]
  clear shape joined ended lastIs
  induction texts with
  | nil => simp
  | cons text texts ih =>
      obtain ⟨head, tail⟩ := List.forall_mem_cons.mp plain
      have rest := ih tail
      simp only [List.map_cons, List.cons_append, List.flatten_cons, List.append_assoc,
        List.nil_append] at rest ⊢
      rw [rowsOf_row text _ head, rest]

/-! ## One update -/

/-- A URL that the shell, `echo` and `sed` leave as it is. -/
structure Usable (url : Bytes) : Prop where
  valid : ServerUrl url
  literal : Literal url
  -- `echo` would take it for an option.
  plainStart : url.head? ≠ some 45

/-- The file is missing, has a URL line, or ends where a line can begin. -/
def Sound (config : Option Bytes) : Prop :=
  ∀ file ∈ config, hasUrl file = true ∨ unfinished file = []

/-- The lines that are not the URL's, as they stand. -/
def settings (file : Bytes) : List Bytes :=
  (rowsOf file).filter fun row => !configures (rowText row)

def urlRows (file : Bytes) : List Bytes := (rowsOf file).filter fun row => configures (rowText row)

section
variable (url : Bytes) (usable : Usable url)
include usable

theorem urlRow_text (ending : Bytes) (ends : ending = [] ∨ ending = [newline]) :
    rowText (urlKey ++ url ++ ending) = urlKey ++ url ∧
      rowEnd (urlKey ++ url ++ ending) = ending := by
  obtain ⟨plain, -⟩ := urlLine_plain url usable.valid
  rcases ends with rfl | rfl
  · rw [List.append_nil]
    exact rowText_open _ plain
  · exact rowText_ended _ plain

omit usable in
theorem configures_url : configures (urlKey ++ url) = true :=
  List.isPrefixOf_iff_prefix.mpr (List.prefix_append _ _)

theorem written_free (text : Bytes) (plain : newline ∉ text) : newline ∉ written url text := by
  unfold written
  split
  · exact (urlLine_plain url usable.valid).1
  · exact plain

omit usable in
theorem editRow_twice (first : Bytes) (before : Usable first) (file : Bytes) :
    ∀ row ∈ rowsOf file, editRow (written url) (editRow (written first) row) =
      editRow (written url) row := by
  intro row member
  by_cases starts : configures (rowText row) = true
  · obtain ⟨text, ending⟩ := urlRow_text first before (rowEnd row) (rowEnd_cases file row member)
    rw [editRow_url first row starts, editRow_url url row starts, editRow, text, ending, written,
      if_pos (configures_url first)]
  · rw [editRow_other first row starts]

theorem editRow_configures (file row : Bytes) (member : row ∈ rowsOf file) :
    configures (rowText (editRow (written url) row)) = configures (rowText row) := by
  by_cases starts : configures (rowText row) = true
  · obtain ⟨text, -⟩ := urlRow_text url usable (rowEnd row) (rowEnd_cases file row member)
    rw [editRow_url url row starts, text, starts]
    exact configures_url url
  · rw [editRow_other url row starts]

end

theorem hasUrl_mem (file : Bytes) :
    hasUrl file = true ↔ ∃ row ∈ rowsOf file, configures (rowText row) = true :=
  List.any_eq_true

section
variable (other : Bytes → Bytes → Bytes) (url : Bytes) (usable : Usable url)
include usable

theorem update_replaces (file : Bytes) (present : hasUrl file = true) :
    updateImageUploader other (some file) url =
      some ((rowsOf file).flatMap (editRow (written url))) := by
  unfold updateImageUploader
  rw [if_neg usable.valid.present]
  simp only [present, if_true, sedInPlace_literal other url file usable.literal]

theorem update_appends (file : Bytes) (absent : hasUrl file = false) :
    updateImageUploader other (some file) url = some (file ++ echo (urlKey ++ url)) := by
  unfold updateImageUploader
  rw [if_neg usable.valid.present]
  simp only [absent, Bool.false_eq_true, if_false]

theorem rows_replaced (file : Bytes) :
    rowsOf ((rowsOf file).flatMap (editRow (written url))) =
      (rowsOf file).map (editRow (written url)) :=
  rowsOf_edited _ (written_free url usable) file

theorem rows_written : rowsOf (echo (urlKey ++ url)) = [urlKey ++ url ++ [newline], []] :=
  rowsOf_row (urlKey ++ url) [] (urlLine_plain url usable.valid).1

theorem configures_written : configures (rowText (urlKey ++ url ++ [newline])) = true := by
  rw [(urlRow_text url usable [newline] (.inr rfl)).1]
  exact configures_url url

theorem update_creates : updateImageUploader other none url =
    updateImageUploader other (some (echo (ascii "# image-uploader configuration"))) url := by
  rw [update_appends other url usable _ (by decide), updateImageUploader,
    if_neg usable.valid.present]

theorem replaced_present (file : Bytes) (present : hasUrl file = true) :
    hasUrl ((rowsOf file).flatMap (editRow (written url))) = true := by
  obtain ⟨row, member, starts⟩ := (hasUrl_mem file).mp present
  refine (hasUrl_mem _).mpr ⟨editRow (written url) row, ?_, ?_⟩
  · rw [rows_replaced url usable]
    exact List.mem_map_of_mem member
  · rw [editRow_configures url usable file row member, starts]

theorem appended_present (file : Bytes) (ended : unfinished file = []) :
    hasUrl (file ++ echo (urlKey ++ url)) = true := by
  obtain ⟨rows, -, appended⟩ := rowsOf_appended file (echo (urlKey ++ url)) ended
  refine (hasUrl_mem _).mpr ⟨urlKey ++ url ++ [newline], ?_, configures_written url usable⟩
  rw [appended, rows_written url usable]
  simp

theorem update_present (config : Option Bytes) (sound : Sound config) :
    ∃ file, updateImageUploader other config url = some file ∧ hasUrl file = true := by
  have written (file : Bytes) (fit : hasUrl file = true ∨ unfinished file = []) :
      ∃ after, updateImageUploader other (some file) url = some after ∧ hasUrl after = true := by
    cases present : hasUrl file with
    | true => exact ⟨_, update_replaces other url usable file present,
        replaced_present url usable file present⟩
    | false =>
        have ended : unfinished file = [] := fit.resolve_left (by simp [present])
        exact ⟨_, update_appends other url usable file present,
          appended_present url usable file ended⟩
  cases config with
  | some file => exact written file (sound file rfl)
  | none =>
      rw [update_creates other url usable]
      exact written _ (.inr (by decide))

theorem update_absorbs (first : Bytes) (before : Usable first) (config : Option Bytes)
    (sound : Sound config) :
    updateImageUploader other (updateImageUploader other config first) url =
      updateImageUploader other config url := by
  have absorbed (file : Bytes) (fit : hasUrl file = true ∨ unfinished file = []) :
      updateImageUploader other (updateImageUploader other (some file) first) url =
        updateImageUploader other (some file) url := by
    cases present : hasUrl file with
    | true =>
        have still := replaced_present first before file present
        -- Row by row the second text replaces the first.
        rw [update_replaces other first before file present,
          update_replaces other url usable _ still, rows_replaced first before,
          update_replaces other url usable file present, List.flatMap_map]
        exact congrArg some (List.flatMap_congr fun row member =>
          editRow_twice url first before file row member)
    | false =>
        have ended : unfinished file = [] := fit.resolve_left (by simp [present])
        have still := appended_present first before file ended
        -- The first update appends a row, which the second one edits.
        obtain ⟨rows, split, appended⟩ := rowsOf_appended file (echo (urlKey ++ first)) ended
        have others : ∀ row ∈ rows, editRow (written url) row = row := by
          intro row member
          refine editRow_other url row fun starts => ?_
          have some' := (hasUrl_mem file).mpr ⟨row, by simp [split, member], starts⟩
          rw [present] at some'
          cases some'
        have kept : rows.flatMap (editRow (written url)) = file := by
          have whole := flatten_rowsOf file
          rw [split, List.flatten_append] at whole
          rw [← List.map_id' rows] at whole
          rw [List.flatMap_congr others, ← whole]
          simp [List.flatMap]
        have edited : editRow (written url) (urlKey ++ first ++ [newline]) =
            echo (urlKey ++ url) := by
          obtain ⟨text, ending⟩ := urlRow_text first before [newline] (.inr rfl)
          rw [editRow, text, ending, written, if_pos (configures_url first)]
          rfl
        rw [update_appends other first before file present,
          update_replaces other url usable _ still, appended, rows_written first before,
          update_appends other url usable file present, List.flatMap_append, kept,
          List.flatMap_cons, edited, List.flatMap_singleton, editRow_other url [] (by decide),
          List.append_nil]
  cases config with
  | some file => exact absorbed file (sound file rfl)
  | none =>
      rw [update_creates other first before, update_creates other url usable]
      -- Of a missing file both make the commented one, and then edit it.
      exact absorbed _ (.inr (by decide))

/-- Every other line stays where it was, and no line is added to a file that has one. -/
theorem update_settings (file after : Bytes) (fit : hasUrl file = true ∨ unfinished file = [])
    (updated : updateImageUploader other (some file) url = some after) :
    settings after = settings file ∧ (∀ row ∈ urlRows after, rowText row = urlKey ++ url) ∧
      (urlRows after).length = max 1 (urlRows file).length := by
  cases present : hasUrl file with
  | true =>
      rw [update_replaces other url usable file present] at updated
      obtain rfl := Option.some.inj updated
      have same : ∀ row ∈ rowsOf file, configures (rowText (editRow (written url) row)) =
          configures (rowText row) := editRow_configures url usable file
      have some' : 1 ≤ (urlRows file).length := by
        obtain ⟨row, member, starts⟩ := (hasUrl_mem file).mp present
        exact List.length_pos_of_mem (List.mem_filter.mpr ⟨member, starts⟩)
      simp only [settings, urlRows, rows_replaced url usable, List.filter_map] at some' ⊢
      refine ⟨?_, ?_, ?_⟩
      · rw [List.filter_congr fun row member => by
          rw [Function.comp_apply, same row member]]
        -- The other rows are edited into themselves.
        conv_rhs => rw [← List.map_id (List.filter _ _)]
        refine List.map_congr_left fun row kept => ?_
        have starts := (List.mem_filter.mp kept).2
        exact editRow_other url row (by simpa using starts)
      · intro row member
        obtain ⟨before, kept, rfl⟩ := List.mem_map.mp member
        obtain ⟨inside, starts⟩ := List.mem_filter.mp kept
        rw [Function.comp_apply, same before inside] at starts
        rw [editRow_url url before starts]
        exact (urlRow_text url usable _ (rowEnd_cases file before inside)).1
      · rw [List.length_map, List.filter_congr fun row member => by
          rw [Function.comp_apply, same row member]]
        omega
  | false =>
      have ended : unfinished file = [] := fit.resolve_left (by simp [present])
      rw [update_appends other url usable file present] at updated
      obtain rfl := Option.some.inj updated
      obtain ⟨rows, split, appended⟩ := rowsOf_appended file (echo (urlKey ++ url)) ended
      have none' : (rowsOf file).filter (fun row => configures (rowText row)) = [] := by
        refine List.filter_eq_nil_iff.mpr fun row member starts => ?_
        have some' := (hasUrl_mem file).mpr ⟨row, member, starts⟩
        rw [present] at some'
        cases some'
      have empty : configures (rowText []) = false := by decide
      have starts := configures_written url usable
      rw [split, List.filter_append, List.append_eq_nil_iff] at none'
      simp only [settings, urlRows, appended, rows_written url usable, split, List.filter_append,
        List.filter_cons, none'.1, empty, starts, List.filter_nil]
      refine ⟨rfl, fun row member => ?_, rfl⟩
      obtain rfl := List.mem_singleton.mp member
      exact (urlRow_text url usable [newline] (.inr rfl)).1

end

/-! ## The script -/

inductive Service where
  | dataCollector
  | imageUploader
  deriving DecidableEq

/-- What the script finds: a PID file of a process that lives, an init script it may execute. -/
structure Surroundings where
  running : Service → Bool
  startable : Service → Bool

inductive Event where
  | wrote (service : Service) (content : Option Bytes)
  | hangUp (service : Service)
  | start (service : Service)
  deriving DecidableEq

def Event.service : Event → Service
  | .wrote service _ => service
  | .hangUp service => service
  | .start service => service

abbrev Files := Service → Option Bytes

structure Run where
  files : Files
  events : List Event
  status : Nat

def reloadOrStart (env : Surroundings) (service : Service) : List Event :=
  if env.running service then [.hangUp service]
  else if env.startable service then [.start service] else []

section
variable (other : Bytes → Bytes → Bytes)

def updateFile : Service → Option Bytes → Bytes → Option Bytes
  | .dataCollector => updateDataCollector
  | .imageUploader => updateImageUploader other

/-- `update_data_collector` and `update_image_uploader`; what `reload_or_start` returns is not
looked at. -/
def update (env : Surroundings) (service : Service) (files : Files) (url : Bytes) : Run :=
  if url = [] then ⟨files, [], 1⟩
  else
    let content := updateFile other service (files service) url
    ⟨Function.update files service content, .wrote service content :: reloadOrStart env service, 0⟩

def updateAll (env : Surroundings) (files : Files) (data images : Bytes) : Run :=
  let first := update other env .dataCollector files data
  if first.status = 0 then
    let second := update other env .imageUploader first.files images
    ⟨second.files, first.events ++ second.events, second.status⟩
  else first

def main (env : Surroundings) (files : Files) (arguments : List Bytes) : Run :=
  let cmd := arguments.headD []
  let argument (i : Nat) := arguments.tail.getD i []
  if cmd = ascii "data" then update other env .dataCollector files (argument 0)
  else if cmd ∈ [ascii "images", ascii "image", ascii "uploader"] then
    update other env .imageUploader files (argument 0)
  else if cmd = ascii "all" then updateAll other env files (argument 0) (argument 1)
  else if cmd ∈ [[], ascii "-h", ascii "--help", ascii "help"] then ⟨files, [], 0⟩
  else ⟨files, [], 1⟩

structure Invocation where
  surroundings : Surroundings
  arguments : List Bytes

def runs : Files → List Invocation → Files × List Event
  | files, [] => (files, [])
  | files, invocation :: rest =>
      let run := main other invocation.surroundings files invocation.arguments
      ((runs run.files rest).1, run.events ++ (runs run.files rest).2)

end

/-! ## What a command line asks for -/

def given (text : Bytes) : Option Bytes := if text = [] then none else some text

def target (service : Service) (arguments : List Bytes) : Option Bytes :=
  let cmd := arguments.headD []
  let argument (i : Nat) := arguments.tail.getD i []
  match service with
  | .dataCollector =>
      if cmd = ascii "data" ∨ cmd = ascii "all" then given (argument 0) else none
  | .imageUploader =>
      if cmd ∈ [ascii "images", ascii "image", ascii "uploader"] then given (argument 0)
      else if cmd = ascii "all" then (given (argument 0)).bind fun _ => given (argument 1)
      else none

def lastTarget (service : Service) : List Invocation → Option (Surroundings × Bytes)
  | [] => none
  | invocation :: rest =>
      (lastTarget service rest).or
        ((target service invocation.arguments).map fun url => (invocation.surroundings, url))

def about (service : Service) (events : List Event) : List Event :=
  events.filter fun event => event.service = service

/-- What one run does to one service. -/
structure Serves (other : Bytes → Bytes → Bytes) (env : Surroundings) (service : Service)
    (files : Files) (asked : Option Bytes) (run : Run) : Prop where
  file : run.files service =
    asked.elim (files service) (updateFile other service (files service))
  told : about service run.events =
    asked.elim [] fun _ => .wrote service (run.files service) :: reloadOrStart env service

theorem about_append (service : Service) (first second : List Event) :
    about service (first ++ second) = about service first ++ about service second :=
  List.filter_append ..

section
variable (other : Bytes → Bytes → Bytes) (env : Surroundings) (files : Files)

theorem about_reload (service asked : Service) :
    about asked (reloadOrStart env service) =
      if service = asked then reloadOrStart env service else [] := by
  unfold reloadOrStart about
  by_cases same : service = asked
  · rw [if_pos same]
    split
    · simp [Event.service, same]
    · split
      · simp [Event.service, same]
      · rfl
  · rw [if_neg same]
    split
    · simp [Event.service, same]
    · split
      · simp [Event.service, same]
      · rfl

theorem update_serves (service asked : Service) (url : Bytes) :
    Serves other env asked files (if service = asked then given url else none)
      (update other env service files url) := by
  unfold update given
  by_cases empty : url = []
  · rw [if_pos empty, if_pos empty, ite_self]
    exact ⟨rfl, rfl⟩
  · rw [if_neg empty, if_neg empty]
    by_cases same : service = asked
    · subst same
      rw [if_pos rfl]
      refine ⟨Function.update_self .., ?_⟩
      have rest := about_reload env service service
      rw [if_pos rfl] at rest
      simp only [Function.update_self, Option.elim_some]
      exact (List.filter_cons_of_pos (by simp [Event.service])).trans (congrArg _ rest)
    · rw [if_neg same]
      refine ⟨Function.update_of_ne (Ne.symm same) .., ?_⟩
      have rest := about_reload env service asked
      rw [if_neg same] at rest
      exact (List.filter_cons_of_neg (by simp [Event.service, same])).trans rest

theorem updateAll_serves (service : Service) (data images : Bytes) :
    Serves other env service files
      (match service with
        | .dataCollector => given data
        | .imageUploader => (given data).bind fun _ => given images)
      (updateAll other env files data images) := by
  have first := update_serves other env files .dataCollector service data
  by_cases empty : data = []
  -- Without the first URL the script ends before the second service.
  · have stopped : update other env .dataCollector files data = ⟨files, [], 1⟩ := if_pos empty
    have same : updateAll other env files data images = ⟨files, [], 1⟩ := by
      rw [updateAll, stopped]
      rfl
    rw [same, given, if_pos empty]
    cases service <;> exact ⟨rfl, rfl⟩
  have went : (update other env .dataCollector files data).status = 0 := by
    rw [update, if_neg empty]
  have second := update_serves other env (update other env .dataCollector files data).files
    .imageUploader service images
  unfold updateAll
  simp only [if_pos went]
  cases service with
  | dataCollector =>
      rw [if_pos rfl] at first
      rw [if_neg (by decide)] at second
      have kept : _ = (update other env .dataCollector files data).files .dataCollector :=
        second.file
      refine ⟨kept.trans first.file, ?_⟩
      simp only [about_append, kept, first.told, second.told, Option.elim_none, List.append_nil]
  | imageUploader =>
      rw [if_neg (by decide)] at first
      rw [if_pos rfl] at second
      have kept : _ = files .imageUploader := first.file
      have present : given data = some data := if_neg empty
      rw [present, Option.bind_some]
      refine ⟨second.file.trans (by rw [kept]), ?_⟩
      simp only [about_append, first.told, second.told, Option.elim_none, List.nil_append]

theorem main_serves (service : Service) (arguments : List Bytes) :
    Serves other env service files (target service arguments)
      (main other env files arguments) := by
  unfold main target
  generalize arguments.headD [] = cmd
  generalize (fun i => arguments.tail.getD i []) = argument
  -- The arms of the `case`, in its order; each serves a service or leaves it alone.
  by_cases data : cmd = ascii "data"
  · subst data
    have served := update_serves other env files .dataCollector service (argument 0)
    rw [if_pos rfl]
    cases service with
    | dataCollector => simpa using served
    | imageUploader =>
        simp only
        rw [if_neg (by decide), if_neg (by decide)]
        exact served
  rw [if_neg data]
  by_cases images : cmd ∈ [ascii "images", ascii "image", ascii "uploader"]
  · have served := update_serves other env files .imageUploader service (argument 0)
    have apart : cmd ≠ ascii "all" := by
      rintro rfl
      exact absurd images (by decide)
    rw [if_pos images]
    cases service with
    | dataCollector =>
        simp only
        rw [if_neg (not_or.mpr ⟨data, apart⟩)]
        exact served
    | imageUploader =>
        simp only
        rw [if_pos images]
        exact served
  rw [if_neg images]
  by_cases all : cmd = ascii "all"
  · have served := updateAll_serves other env files service (argument 0) (argument 1)
    rw [if_pos all]
    cases service with
    | dataCollector =>
        simp only
        rw [if_pos (.inr all)]
        exact served
    | imageUploader =>
        simp only
        rw [if_neg images, if_pos all]
        exact served
  · have none' : Serves other env service files none
        (if cmd ∈ [[], ascii "-h", ascii "--help", ascii "help"] then ⟨files, [], 0⟩
          else ⟨files, [], 1⟩) := by
      split <;> exact ⟨rfl, rfl⟩
    rw [if_neg all]
    cases service with
    | dataCollector =>
        simp only
        rw [if_neg (not_or.mpr ⟨data, all⟩)]
        exact none'
    | imageUploader =>
        simp only
        rw [if_neg images, if_neg all]
        exact none'

/-- The URL each run gives is one that nothing on its way changes. -/
def AllUsable (invocations : List Invocation) : Prop :=
  ∀ invocation ∈ invocations, ∀ service url,
    target service invocation.arguments = some url → Usable url

theorem updateFile_absorbs (service : Service) (first url : Bytes) (before : Usable first)
    (usable : Usable url) (config : Option Bytes)
    (sound : service = .imageUploader → Sound config) :
    updateFile other service (updateFile other service config first) url =
      updateFile other service config url := by
  cases service with
  | dataCollector =>
      show updateDataCollector _ url = updateDataCollector _ url
      rw [updateDataCollector, updateDataCollector, if_neg usable.valid.present,
        if_neg usable.valid.present]
  | imageUploader => exact update_absorbs other url usable first before config (sound rfl)

theorem updateFile_sound (service : Service) (url : Bytes) (usable : Usable url)
    (config : Option Bytes) (sound : service = .imageUploader → Sound config) :
    service = .imageUploader → Sound (updateFile other service config url) := by
  rintro rfl
  obtain ⟨file, updated, present⟩ := update_present other url usable config (sound rfl)
  intro after member
  rw [show updateFile other .imageUploader config url = some file from updated] at member
  obtain rfl := Option.some.inj member
  exact .inl present

/-- What stands in the file and what the service was told, whatever the other runs were. -/
structure LastWins (service : Service) (files : Files) (invocations : List Invocation)
    (final : Files × List Event) : Prop where
  untouched : lastTarget service invocations = none →
    final.1 service = files service ∧ about service final.2 = []
  updated : ∀ env url, lastTarget service invocations = some (env, url) →
    final.1 service = updateFile other service (files service) url ∧
      ∃ before, about service final.2 =
        before ++ .wrote service (final.1 service) :: reloadOrStart env service

theorem lastTarget_usable (service : Service) (invocations : List Invocation)
    (usable : AllUsable invocations) (env : Surroundings) (url : Bytes)
    (last : lastTarget service invocations = some (env, url)) : Usable url := by
  induction invocations with
  | nil => cases last
  | cons invocation rest ih =>
      obtain ⟨now, later⟩ := List.forall_mem_cons.mp usable
      rw [lastTarget, Option.or_eq_some_iff] at last
      rcases last with there | ⟨-, here⟩
      · exact ih later there
      · obtain ⟨asked, same, pair⟩ := Option.map_eq_some_iff.mp here
        obtain ⟨-, rfl⟩ := Prod.mk.inj pair
        exact now service asked same

end

/-- From the last run to the first: what came before an update leaves nothing in the file. -/
theorem runs_lastWins (other : Bytes → Bytes → Bytes) (service : Service)
    (invocations : List Invocation) (files : Files) (usable : AllUsable invocations)
    (sound : service = .imageUploader → Sound (files service)) :
    LastWins other service files invocations (runs other files invocations) := by
  -- By induction on the runs from the first on: `lastTarget` asks the later ones first.
  induction invocations generalizing files with
  | nil => exact ⟨fun _ => ⟨rfl, rfl⟩, nofun⟩
  | cons invocation rest ih =>
      obtain ⟨now, later⟩ := List.forall_mem_cons.mp usable
      have served := main_serves other invocation.surroundings files service invocation.arguments
      rw [runs]
      generalize main other invocation.surroundings files invocation.arguments = run at served ⊢
      obtain ⟨file, told⟩ := served
      cases asked : target service invocation.arguments with
      | none =>
          rw [asked, Option.elim_none] at file told
          have rested := ih run.files later (by rwa [file])
          refine ⟨fun none' => ?_, fun env url last => ?_⟩
          · rw [lastTarget, asked, Option.map_none, Option.or_none] at none'
            obtain ⟨kept, silent⟩ := rested.untouched none'
            exact ⟨kept.trans file, by rw [about_append, told, silent]; rfl⟩
          · rw [lastTarget, asked, Option.map_none, Option.or_none] at last
            obtain ⟨content, before, heard⟩ := rested.updated env url last
            exact ⟨content.trans (by rw [file]), before,
              by rw [about_append, told, heard, List.nil_append]⟩
      | some url =>
          have good := now service url asked
          rw [asked, Option.elim_some] at file told
          have rested := ih run.files later (by
            rw [file]
            exact updateFile_sound other service url good _ sound)
          refine ⟨fun none' => ?_, fun env last found => ?_⟩
          · rw [lastTarget, asked, Option.or_eq_none_iff] at none'
            cases none'.2
          · rw [lastTarget, Option.or_eq_some_iff] at found
            rcases found with there | ⟨absent, here⟩
            · obtain ⟨content, before, heard⟩ := rested.updated env last there
              refine ⟨content.trans ?_, _ ++ before, by
                rw [about_append, heard, ← List.append_assoc]⟩
              rw [file]
              -- A later run writes over what this one has written.
              exact updateFile_absorbs other service url last good
                (lastTarget_usable service rest later env last there) _ sound
            -- This run is the last to name the service.
            · rw [asked] at here
              obtain ⟨rfl, rfl⟩ := Prod.mk.inj (Option.some.inj here)
              obtain ⟨kept, silent⟩ := rested.untouched absent
              exact ⟨kept.trans file, [], by
                rw [about_append, told, silent, List.append_nil, List.nil_append, kept]⟩

/-- After any history of runs each file is what the last run for its service alone would have made
of it, the service has been told after that, and both daemons read the URL back; of the uploader's
file nothing else has moved. -/
theorem updates_last_win (other : Bytes → Bytes → Bytes) (invocations : List Invocation)
    (files : Files) (usable : AllUsable invocations) (sound : Sound (files .imageUploader)) :
    (∀ service, LastWins other service files invocations (runs other files invocations)) ∧
    (∀ env url current, lastTarget .dataCollector invocations = some (env, url) →
      loadServerUrl current ((runs other files invocations).1 .dataCollector) = url) ∧
    ∀ env url, lastTarget .imageUploader invocations = some (env, url) →
      (∀ file, files .imageUploader = some file → ∃ after,
        (runs other files invocations).1 .imageUploader = some after ∧
        settings after = settings file ∧ (∀ row ∈ urlRows after, rowText row = urlKey ++ url) ∧
        (urlRows after).length = max 1 (urlRows file).length) ∧
      ∀ cfg, UpdateSafe cfg (files .imageUploader) url →
        let loaded := loadConfig cfg ((runs other files invocations).1 .imageUploader)
        cstring loaded.serverUrl.toList = url ∧
          others loaded = others (loadConfig cfg (files .imageUploader)) := by
  have wins (service : Service) := runs_lastWins other service invocations files usable
    (fun images => images ▸ sound)
  refine ⟨wins, fun env url current last => ?_, fun env url last => ⟨fun file found => ?_,
    fun cfg safe => ?_⟩⟩
  · have good := lastTarget_usable .dataCollector invocations usable env url last
    rw [((wins .dataCollector).updated env url last).1]
    exact dataCollector_agrees current _ url good.valid
  · have good := lastTarget_usable .imageUploader invocations usable env url last
    obtain ⟨after, updated, -⟩ := update_present other url good _ sound
    refine ⟨after, ((wins .imageUploader).updated env url last).1.trans updated, ?_⟩
    rw [found] at updated
    exact update_settings other url good file after (sound file found) updated
  · have good := lastTarget_usable .imageUploader invocations usable env url last
    rw [((wins .imageUploader).updated env url last).1]
    exact updateSafe_agrees other cfg _ url good.valid safe

def everywhere : Surroundings := ⟨fun _ => true, fun _ => true⟩

def bothThenImages : List Invocation :=
  [⟨everywhere, [ascii "all", ascii "http://a/data", ascii "http://a/images"]⟩,
    ⟨everywhere, [ascii "image", ascii "http://b/"]⟩]

/-- Both services, then the uploader alone, on a node without configuration. -/
theorem updates_last_win_twice :
    loadServerUrl [] ((runs (fun _ file => file) (fun _ => none) bothThenImages).1
      .dataCollector) = ascii "http://a/data" ∧
    (runs (fun _ file => file) (fun _ => none) bothThenImages).1 .imageUploader =
      updateImageUploader (fun _ file => file) none (ascii "http://b/") := by
  have usable : AllUsable bothThenImages := by
    have good : Usable (ascii "http://a/data") ∧ Usable (ascii "http://a/images") ∧
        Usable (ascii "http://b/") :=
      ⟨⟨by decide, by decide, by decide⟩, ⟨by decide, by decide, by decide⟩,
        ⟨by decide, by decide, by decide⟩⟩
    intro invocation member service url asked
    simp only [bothThenImages, List.mem_cons, List.not_mem_nil, or_false] at member
    rcases member with rfl | rfl <;> cases service
    · exact Option.some.inj asked ▸ good.1
    · exact Option.some.inj asked ▸ good.2.1
    · cases asked
    · exact Option.some.inj asked ▸ good.2.2
  obtain ⟨wins, data, -⟩ := updates_last_win (fun _ file => file) bothThenImages (fun _ => none)
    usable nofun
  exact ⟨data everywhere _ [] rfl, ((wins .imageUploader).updated everywhere _ rfl).1⟩

end SensorNode.UpdateHistory
