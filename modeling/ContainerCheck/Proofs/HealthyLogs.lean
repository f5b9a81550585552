import ContainerCheck.Proofs.HealthyScenarios
import ContainerCheck.Proofs.MemoryLogs

namespace ContainerCheck.Check

open ContainerCheck.Cri ContainerCheck.Host ContainerCheck.Session ContainerCheck.Text

namespace Harness

variable {config : Config} {tree : Tree} {fixture : Fixture} {c : MemoryContainer}

/-- The name of a log file, which leaves room for the name it gets when it is put aside. -/
structure IsLogName (file : String) : Prop extends Tree.IsShortName file where
  rotated : Tree.IsShortName (file ++ rotatedSuffix)

theorem isLogName_fresh {stem : String} (htext : IsNameText stem.toList)
    (hshort : stem.toList.length ≤ 100) (n : Nat) :
    IsLogName (stem ++ World.freshUuid n ++ ".log") := by
  have huuid : (World.freshUuid n).toList = "00000000-0000-4000-8000-".toList ++ fixed 12 n :=
    String.toList_append.trans (congrArg _ String.toList_ofList)
  have hfixed : IsNameText (fixed 12 n) := .of_digits fun c hc => isDigit_of_mem_fixed hc
  have hhead : IsNameText "00000000-0000-4000-8000-".toList := by decide
  have hname : IsNameText (stem ++ World.freshUuid n ++ ".log").toList := by
    rw [String.toList_append, String.toList_append, huuid]
    exact (htext.append (hhead.append hfixed)).append (by decide)
  have hlength : (stem ++ World.freshUuid n ++ ".log").toList.length =
      stem.toList.length + 40 := by
    rw [String.toList_append, String.toList_append, huuid]
    simp
  have hrotated : (stem ++ World.freshUuid n ++ ".log" ++ rotatedSuffix).toList.length =
      stem.toList.length + 44 := by
    rw [String.toList_append, List.length_append, hlength]
    rfl
  refine ⟨hname.isShortName (by omega) (by unfold longestName; omega), ?_⟩
  refine IsNameText.isShortName ?_ (by omega) (by unfold longestName; omega)
  rw [String.toList_append]
  exact hname.append (by decide)

theorem leads_logConfig {stem : String} (htext : IsNameText stem.toList)
    (hshort : stem.toList.length ≤ 100) (command : List String) {before : Store Memory → Prop} :
    Leads before ((inMemory config).logConfig stem command) fun container store =>
      (container.command = command ∧ ∃ file, IsLogName file ∧ container.logPath = some file) ∧
        before store := by
  refine (leads_uniqueName stem).bind fun name => .of_and ?_
  rintro ⟨n, rfl⟩
  exact .pure fun _ h => ⟨⟨rfl, _, isLogName_fresh htext hshort n, rfl⟩, h⟩

structure IsLogged (tree : Tree) (scratch : String) (fixture : Fixture) : Prop where
  room : tree.Roomy
  name : IsScratchName scratch
  logDirectory : fixture.config.logDirectory = some (pathOf (tree.home ++ [scratch]))

structure IsLogger (path : String) (fixture : Fixture) (c : MemoryContainer) : Prop where
  created : c.state = .created
  inside : c.sandbox = fixture.id
  log : c.log = some path

section

variable {scratch file : String} (h : IsLogged tree scratch fixture) (hfile : IsLogName file)
include h hfile

theorem joinPath_log :
    joinPath (pathOf (tree.home ++ [scratch])) file = pathOf (tree.home ++ [scratch] ++ [file]) :=
  joinPath_pathOf (Tree.scratch_put h.room h.name.toIsShortName).stands.isName hfile.toIsName

theorem leads_createLogger {container : ContainerConfig} (hlog : container.logPath = some file)
    {now : Tree} :
    Leads (Store.Shows now [(fixture.id, fixture.config)] [])
      ((inMemory config).createContainer fixture container) fun id store =>
        ∃ c, (IsLogger (pathOf (tree.home ++ [scratch] ++ [file])) fixture c ∧ c.id = id ∧
            c.config = container) ∧
          store.Shows now [(fixture.id, fixture.config)] [c] := by
  refine (leads_createContainer fixture container).mono fun id store hstore =>
    ⟨_, ⟨⟨rfl, rfl, ?_⟩, rfl, rfl⟩, hstore⟩
  have hpath := joinPath_log h hfile
  simp [logOf, hlog, h.logDirectory, hpath]

theorem containerLog_logged {container : ContainerConfig} (hlog : container.logPath = some file) :
    containerLog fixture container = .ok (pathOf (tree.home ++ [scratch] ++ [file])) := by
  have hpath := joinPath_log h hfile
  simp only [containerLog, hlog, Fixture.logDirectory, h.logDirectory]
  rw [← hpath]
  rfl

end

/-- What is known of the log file of a container in a log directory, and of the one that has been
put aside. -/
structure LogFiles (tree : Tree) (scratch file : String) (current rotated : Option Node)
    (now : Tree) : Prop extends tree.Scratch scratch now where
  current : now.find? (tree.home ++ [scratch] ++ [file]) = current
  rotated : now.find? (tree.home ++ [scratch] ++ [file ++ rotatedSuffix]) = rotated

section

variable {scratch file : String} {now : Tree} {current rotated : Option Node}

theorem rotated_ne (file : String) : file ++ rotatedSuffix ≠ file := by
  intro heq
  have hlength := congrArg (fun text : String => text.toList.length) heq
  simp [rotatedSuffix] at hlength

theorem LogFiles.fresh (h : IsLogged tree scratch fixture) :
    LogFiles tree scratch file none none (tree.put (tree.home ++ [scratch]) .directory) where
  toScratch := Tree.scratch_put h.room h.name.toIsShortName
  current := find?_fresh h.room h.name file
  rotated := find?_fresh h.room h.name _

theorem LogFiles.write (h : LogFiles tree scratch file current rotated now) (content : List UInt8) :
    LogFiles tree scratch file (some (.file content)) rotated
      (now.put (tree.home ++ [scratch] ++ [file]) (.file content)) where
  toScratch := h.toScratch.put file (.file content)
  current := (Tree.find?_put now (List.concat_ne_nil _ _) _ _).trans (if_pos rfl)
  rotated := by
    have hother : tree.home ++ [scratch] ++ [file ++ rotatedSuffix] ≠
        tree.home ++ [scratch] ++ [file] := by
      simpa using rotated_ne file
    exact (Tree.find?_put now (List.concat_ne_nil _ _) _ _).trans ((if_neg hother).trans h.rotated)

theorem LogFiles.rotate {content : List UInt8}
    (h : LogFiles tree scratch file (some (.file content)) none now) :
    LogFiles tree scratch file none (some (.file content))
      (now.move (tree.home ++ [scratch] ++ [file])
        (tree.home ++ [scratch] ++ [file ++ rotatedSuffix])) where
  toScratch := h.toScratch.move file (file ++ rotatedSuffix)
  current := by
    refine Tree.find?_move_source (List.concat_ne_nil _ _) fun hbelow => ?_
    have hsame := hbelow.eq_of_length (by simp)
    exact rotated_ne file (by simpa using hsame)
  rotated := Tree.find?_move_target (List.concat_ne_nil _ _) (List.concat_ne_nil _ _) h.current

end

section

variable {scratch file : String} {now : Tree} {current rotated : Option Node}
  {content : List UInt8} {containers : List MemoryContainer}

section

variable (h : IsLogged tree scratch fixture) (hfile : IsLogName file)
include h hfile

theorem isHomePath_log :
    Tree.IsHomePath (tree.home ++ [scratch]) file (pathOf (tree.home ++ [scratch] ++ [file])) :=
  h.room.isFilePath h.name.toIsShortName hfile.toIsShortName

theorem isHomePath_rotated :
    Tree.IsHomePath (tree.home ++ [scratch]) (file ++ rotatedSuffix)
      (pathOf (tree.home ++ [scratch] ++ [file]) ++ rotatedSuffix) := by
  rw [pathOf_concat_append]
  exact h.room.isFilePath h.name.toIsShortName hfile.rotated

/-- A container that writes its first line when it is started. -/
theorem leads_startLogger (hc : IsLogger (pathOf (tree.home ++ [scratch] ++ [file])) fixture c)
    (hnow : LogFiles tree scratch file none rotated now) {line : Time.Instant → List UInt8}
    (hline : ∀ time, ownLine time c.config.command = some (line time)) {state : ContainerState}
    (hstate : startedState c = state) :
    Leads (Store.Shows now [(fixture.id, fixture.config)] [c])
      ((inMemory config).startContainer c.id) fun _ store =>
        ∃ time : Time.Instant, ∃ after, (time.Plain ∧
            LogFiles tree scratch file (some (.file (line time))) rotated after) ∧
          store.Shows after [(fixture.id, fixture.config)] [c.inState state] := by
  have happend := Tree.append_free hnow.stands (isHomePath_log h hfile) hnow.current
  refine (leads_startWriting hc.log happend hc.created hline).mono ?_
  rintro ⟨⟩ store ⟨time, htime, hstore⟩
  rw [hstate] at hstore
  exact ⟨time, _, ⟨htime, hnow.write _⟩, hstore⟩

/-- A container that goes on in a new file. -/
theorem leads_reopenLogger (hc : c.log = some (pathOf (tree.home ++ [scratch] ++ [file])))
    (hnow : LogFiles tree scratch file none rotated now) :
    Leads (Store.Shows now [(fixture.id, fixture.config)] [c])
      ((inMemory config).reopenLog c.id) fun _ store =>
        ∃ time : Time.Instant, ∃ after, (time.Plain ∧
            LogFiles tree scratch file (some (.file (taggedLogLine time))) rotated after) ∧
          store.Shows after [(fixture.id, fixture.config)] [c] := by
  have happend := Tree.append_free hnow.stands (isHomePath_log h hfile) hnow.current
  refine (leads_reopenLog hc happend).mono ?_
  rintro ⟨⟩ store ⟨time, htime, hstore⟩
  exact ⟨time, _, ⟨htime, hnow.write _⟩, hstore⟩

theorem leads_rotate (hnow : LogFiles tree scratch file (some (.file content)) none now) :
    Leads (Store.Shows now [(fixture.id, fixture.config)] containers)
      (Session.rename (pathOf (tree.home ++ [scratch] ++ [file]))
        (pathOf (tree.home ++ [scratch] ++ [file]) ++ rotatedSuffix)) fun _ store =>
        ∃ after, LogFiles tree scratch file none (some (.file content)) after ∧
          store.Shows after [(fixture.id, fixture.config)] containers := by
  have hrename := Tree.rename_inside hnow.stands (isHomePath_log h hfile) hnow.current
    (isHomePath_rotated h hfile) hnow.rotated
  exact (leads_changeShown hrename).mono fun _ store hstore => ⟨_, hnow.rotate, hstore⟩

theorem read_current (hnow : LogFiles tree scratch file (some (.file content)) rotated now) :
    now.read (pathOf (tree.home ++ [scratch] ++ [file])) = .ok content :=
  Tree.read_inside hnow.stands (isHomePath_log h hfile) hnow.current

theorem read_rotated (hnow : LogFiles tree scratch file current (some (.file content)) now) :
    now.read (pathOf (tree.home ++ [scratch] ++ [file]) ++ rotatedSuffix) = .ok content :=
  Tree.read_inside hnow.stands (isHomePath_rotated h hfile) hnow.rotated

theorem leads_pathExists
    (hnow : LogFiles tree scratch file (some (.file content)) rotated now) :
    Leads (Store.Shows now [(fixture.id, fixture.config)] containers)
      (Session.pathExists (pathOf (tree.home ++ [scratch] ++ [file]))) fun present store =>
        present = true ∧ store.Shows now [(fixture.id, fixture.config)] containers := by
  refine leads_inspect fun store hstore => ⟨true, ?_, rfl, hstore⟩
  rw [hstore.tree, Tree.exists?_inside hnow.stands (isHomePath_log h hfile) hnow.current]
  rfl

/-- The runtime goes on in a new log file, and the one that was put aside stays as it is. -/
theorem leads_checkRotation (hinterval : config.logPollIntervalMs ≠ 0)
    (hc : c.log = some (pathOf (tree.home ++ [scratch] ++ [file])))
    (hinside : c.sandbox = fixture.id) {time : Time.Instant} (htime : time.Plain)
    (hnow : LogFiles tree scratch file (some (.file (taggedLogLine time))) none now) :
    Leads (Store.Shows now [(fixture.id, fixture.config)] [c])
      ((inMemory config).checkRotation c.id (pathOf (tree.home ++ [scratch] ++ [file])))
      fun _ => Store.Hosts (tree.Scratch scratch) fixture := by
  have hlines := readRecords_taggedLogLine htime
  refine (leads_waitForLog (read_current h hfile hnow) hlines (by simp)).bind fun _ => ?_
  refine (leads_rotate h hfile hnow).bind fun _ => .of_exists fun aside => .of_and fun haside => ?_
  refine (leads_reopenLogger h hfile hc haside).bind fun _ => .of_exists fun time' =>
    .of_exists fun after => .of_and ?_
  rintro ⟨htime', hafter⟩
  refine (leads_pathExists h hfile hafter).bind fun present => .of_and fun hpresent => ?_
  refine (leads_require hpresent _).bind fun _ => ?_
  refine (leads_waitForLog (read_current h hfile hafter) (readRecords_taggedLogLine htime')
    (by simp)).bind fun _ => ?_
  refine (leads_readLog (read_rotated h hfile hafter) hlines).bind fun before => .of_and ?_
  rintro rfl
  exact leads_hosts (leads_verifyUnchanged hinterval (read_rotated h hfile hafter) hlines) hinside
    hafter.toScratch

end

/-- A step with a container that logs, and with the path of its log. -/
theorem leads_withLogger (h : IsLogged tree scratch fixture) {stem : String}
    (htext : IsNameText stem.toList) (hshort : stem.toList.length ≤ 100) {command : List String}
    {body : String → ContainerId → Session Memory Unit}
    (hbody : ∀ file c, IsLogName file →
      IsLogger (pathOf (tree.home ++ [scratch] ++ [file])) fixture c → c.config.command = command →
      Leads (Store.Shows (tree.put (tree.home ++ [scratch]) .directory)
          [(fixture.id, fixture.config)] [c])
        (body (pathOf (tree.home ++ [scratch] ++ [file])) c.id)
        fun _ => Store.Hosts (tree.Scratch scratch) fixture) :
    Leads (Store.Shows (tree.put (tree.home ++ [scratch]) .directory)
        [(fixture.id, fixture.config)] [])
      (do
        let container ← (inMemory config).logConfig stem command
        let path ← Session.lift (containerLog fixture container)
        let id ← (inMemory config).createContainer fixture container
        body path id)
      fun _ => Store.Hosts (tree.Scratch scratch) fixture := by
  refine (leads_logConfig htext hshort command).bind fun container => .of_and ?_
  rintro ⟨hcommand, file, hfile, hlog⟩
  refine leads_lift_bind (containerLog_logged h hfile hlog) ?_
  refine (leads_createLogger h hfile hlog).bind fun id => .of_exists fun c => .of_and ?_
  rintro ⟨hc, rfl, rfl⟩
  exact hbody file c hfile hc hcommand

theorem leads_runIn_startWithLog (h : IsLogged tree scratch fixture) :
    Leads (Store.Shows (tree.put (tree.home ++ [scratch]) .directory)
        [(fixture.id, fixture.config)] [])
      ((inMemory config).runIn fixture .startWithLog) fun _ =>
        Store.Hosts (tree.Scratch scratch) fixture := by
  refine leads_withLogger h (by decide) (by decide) fun file c hfile hc hcommand => ?_
  have hline (time : Time.Instant) :
      ownLine time c.config.command = some (jsonLogLine time (config.defaultLog ++ "\n")) := by
    rw [hcommand]
    rfl
  have hexits : startedState c = .exited := by
    rw [startedState, hcommand]
    rfl
  refine (leads_startLogger h hfile hc (.fresh h) hline hexits).bind fun _ =>
    .of_exists fun time => .of_exists fun now => .of_and ?_
  rintro ⟨htime, hnow⟩
  have hwait : Leads (Store.Shows now [(fixture.id, fixture.config)] [c.inState .exited])
      ((inMemory config).waitForState c.id .exited) fun _ =>
        Store.Shows now [(fixture.id, fixture.config)] [c.inState .exited] :=
    leads_waitForState (c := c.inState .exited) rfl
  refine leads_hosts (c := c.inState .exited) (hwait.bind fun _ => ?_) hc.inside hnow.toScratch
  exact leads_verifyDefaultLog htime (read_current h hfile hnow)

/-- A shell that loops writes a line at once, whatever else its script says. -/
theorem ownLine_loop (time : Time.Instant) (script : String) :
    ownLine time ["sh", "-c", "while true; do echo " ++ script] =
      some (taggedLogLine time) := by
  have hlead : ['w', 'h', 'i', 'l', 'e'] <+: "while true; do echo ".toList := by decide
  have hloop : ['w', 'h', 'i', 'l', 'e'].isPrefixOf ("while true; do echo " ++ script).toList =
      true := by
    rw [List.isPrefixOf_iff_prefix, String.toList_append]
    exact hlead.trans (List.prefix_append _ _)
  simp only [ownLine, hloop, if_true]

theorem leads_runIn_reopenLog (h : IsLogged tree scratch fixture)
    (hinterval : config.logPollIntervalMs ≠ 0) :
    Leads (Store.Shows (tree.put (tree.home ++ [scratch]) .directory)
        [(fixture.id, fixture.config)] [])
      ((inMemory config).runIn fixture .reopenLog) fun _ =>
        Store.Hosts (tree.Scratch scratch) fixture := by
  refine leads_withLogger h (by decide) (by decide) fun file c hfile hc hcommand => ?_
  have hline (time : Time.Instant) :
      ownLine time c.config.command = some (taggedLogLine time) := by
    rw [hcommand, String.append_assoc]
    exact ownLine_loop time _
  have hruns : startedState c = .running := by
    rw [startedState, hcommand]
    rfl
  refine (leads_startLogger h hfile hc (.fresh h) hline hruns).bind fun _ =>
    .of_exists fun time => .of_exists fun now => .of_and ?_
  rintro ⟨htime, hnow⟩
  exact leads_checkRotation (c := c.inState .running) h hfile hinterval hc.log hc.inside htime hnow

end

end Harness

end ContainerCheck.Check
