import PlatformRules.Console.Run
import PlatformRules.Proofs.Files.Writing

namespace PlatformRules.Console

open FileTree (SameBut Refills)

variable {α β : Type} {c : Context} {s s' : Screen} {x : Work α} {a : α} {e : Failure}
  {t u : FileTree} {q : Place}

theorem run_bind (x : Work α) (f : α → Work β) : (x >>= f).run s =
    match x.run s with
    | (.ok a, s') => (f a).run s'
    | (.error e, s') => (.error e, s') := by
  change (match x.run s with | (r, s') => ExceptT.bindCont f r s') = _
  rcases x.run s with ⟨_ | _, _⟩ <;> rfl

theorem run_tryCatch (x : Work α) (handler : Failure → Work α) : (tryCatch x handler).run s =
    match x.run s with
    | (.ok a, s') => (.ok a, s')
    | (.error e, s') => (handler e).run s' := by
  simp only [tryCatch, tryCatchThe, MonadExceptOf.tryCatch, ExceptT.tryCatch, ExceptT.run,
    ExceptT.mk, bind, StateT.bind]
  rcases x s with ⟨_ | _, _⟩ <;> rfl

theorem run_bind_ok {f : α → Work β} (h : x.run s = (.ok a, s')) :
    (x >>= f).run s = (f a).run s' := by
  rw [run_bind, h]

theorem run_bind_error {f : α → Work β} (h : x.run s = (.error e, s')) :
    (x >>= f).run s = (.error e, s') := by
  rw [run_bind, h]

theorem run_get_bind (f : Screen → Work α) : (get >>= f).run s = (f s).run s := rfl

def Screen.add (s : Screen) (output errors : String) : Screen :=
  { s with output := s.output ++ output, errors := s.errors ++ errors }

@[simp] theorem Screen.add_empty (s : Screen) : s.add "" "" = s := by
  simp [Screen.add]

@[simp] theorem Screen.add_add (s : Screen) (output errors output' errors' : String) :
    (s.add output errors).add output' errors' = s.add (output ++ output') (errors ++ errors') := by
  simp [Screen.add, String.append_assoc]

theorem run_print (text : String) : (print text).run s = (.ok (), s.add text "") := by
  change (Except.ok (), { s with output := s.output ++ text }) = _
  simp [Screen.add]

theorem run_complain (text : String) : (complain text).run s = (.ok (), s.add "" text) := by
  change (Except.ok (), { s with errors := s.errors ++ text }) = _
  simp [Screen.add]

theorem run_forM_print (line : Option String) :
    (line.forM fun l => print (l ++ "\n")).run s =
      (.ok (), s.add (line.elim "" (· ++ "\n")) "") := by
  cases line with
  | none => exact congrArg (Prod.mk _) s.add_empty.symm
  | some l => exact run_print (l ++ "\n")

theorem run_forM_complain (line : Option String) :
    (line.forM fun l => complain (l ++ "\n")).run s =
      (.ok (), s.add "" (line.elim "" (· ++ "\n"))) := by
  cases line with
  | none => exact congrArg (Prod.mk _) s.add_empty.symm
  | some l => exact run_complain (l ++ "\n")

theorem run_forIn {as : List α} {body : α → PUnit → Work (ForInStep PUnit)}
    {output errors : α → String}
    (h : ∀ a s, (body a ⟨⟩).run s = (.ok (.yield ⟨⟩), s.add (output a) (errors a))) :
    (forIn as PUnit.unit body).run s =
      (.ok ⟨⟩, s.add (String.join (as.map output)) (String.join (as.map errors))) := by
  induction as generalizing s with
  | nil => exact congrArg (Prod.mk _) s.add_empty.symm
  | cons a as ih =>
    rw [List.forIn_cons, run_bind_ok (h a s)]
    dsimp only
    rw [ih, Screen.add_add, List.map_cons, List.map_cons, String.join_cons, String.join_cons]

theorem Context.log_log (c : Context) (events more : List Event) (s : Screen) :
    c.log more (c.log events s) = c.log (events ++ more) s :=
  List.foldl_append.symm

theorem Context.log_of_none (h : c.sink = none) (events : List Event) (s : Screen) :
    c.log events s = s := by
  induction events generalizing s with
  | nil => rfl
  | cons e events ih =>
    have hevent : c.logEvent s e = s := by rw [logEvent, h]
    rw [log, List.foldl_cons, hevent]
    exact ih s

theorem run_report (events : List Event) : (c.report events).run s = (.ok (), c.log events s) :=
  rfl

def Context.LogsTo (c : Context) (t : FileTree) (q : Place) : Prop :=
  ∀ sink ∈ c.sink, ∀ path, sink.outlet = .file path →
    t.stop path = .ok q ∧ (t.content? q).isSome = true

theorem Context.LogsTo.of_refills (h : c.LogsTo t q) (hfill : Refills q t u) : c.LogsTo u q :=
  fun sink hsink path houtlet =>
    let ⟨hstop, hcontent⟩ := h sink hsink path houtlet
    ⟨hfill.follow hstop, (hfill.content? q).trans hcontent⟩

theorem refills_write {outlet : Outlet} (text : String)
    (h : ∀ path, outlet = .file path →
      s.files.stop path = .ok q ∧ (s.files.content? q).isSome = true) :
    Refills q s.files (s.write text outlet).files := by
  cases outlet with
  | output => exact .refl q s.files
  | errors => exact .refl q s.files
  | file path =>
    obtain ⟨hstop, hcontent⟩ := h path rfl
    rw [Screen.write]
    cases happend : s.files.append path (Utf8.encode text) with
    | error e => exact .refl q s.files
    | ok files =>
      obtain ⟨r, htarget, rfl⟩ := FileTree.append_eq_ok happend
      obtain ⟨hstop', hfolder⟩ := FileTree.target_eq_ok htarget
      obtain rfl : r = q := Except.ok.inj (hstop'.symm.trans hstop)
      exact FileTree.refills_put hfolder hcontent

theorem Context.LogsTo.refills_logEvent (h : c.LogsTo s.files q) (e : Event) :
    Refills q s.files (c.logEvent s e).files := by
  unfold Context.logEvent
  cases hsink : c.sink with
  | none => exact .refl q s.files
  | some sink =>
    dsimp only
    split
    · exact refills_write _ (h sink hsink)
    · exact .refl q s.files

theorem Context.LogsTo.refills_log (h : c.LogsTo s.files q) (events : List Event) :
    Refills q s.files (c.log events s).files := by
  induction events generalizing s with
  | nil => exact .refl q s.files
  | cons e events ih =>
    have hfill := h.refills_logEvent e
    exact hfill.trans (ih (h.of_refills hfill))

theorem run_mapM {work : α → Work β} {result : α → β} (as : List α)
    (h : ∀ a ∈ as, ∀ events, ∃ more,
      (work a).run (c.log events s) = (.ok (result a), c.log more s)) (events : List Event) :
    ∃ more, (as.mapM work).run (c.log events s) = (.ok (as.map result), c.log more s) := by
  induction as generalizing events with
  | nil => exact ⟨events, rfl⟩
  | cons a as ih =>
    obtain ⟨more, hfirst⟩ := h a (by simp) events
    obtain ⟨most, hrest⟩ := ih (fun a ha => h a (List.mem_cons_of_mem _ ha)) more
    refine ⟨most, ?_⟩
    rw [List.mapM_cons, run_bind_ok hfirst, run_bind_ok hrest]
    rfl

theorem run_readSettings (environment : Environment) (config : Option Path) :
    ((readSettings environment config).run s).2 = s := by
  cases config with
  | none => rfl
  | some path =>
    simp only [readSettings, run_get_bind]
    cases s.files.readText path with
    | error e => rfl
    | ok text =>
      dsimp only
      cases Settings.ofToml? environment text <;> rfl

theorem Outlet.ofPath_eq_file {path path' : Path} (h : ofPath path = file path') :
    path = path' := by
  unfold ofPath at h
  split at h
  · cases h
  · split at h
    · cases h
    · exact Outlet.file.inj h

section

variable {arguments : Arguments} {path : Path}

theorem run_openSink_file (h : arguments.logFile.map Outlet.ofPath = some (.file path))
    (p : LoggingPreferences) : (openSink arguments p).run s =
      match s.files.addParents path >>= (·.append path []) with
      | .error e => (.error (.unwritable path e), s)
      | .ok files =>
        (.ok (some ⟨.file path, p.structured || arguments.structured,
          arguments.logLevel.getD p.level⟩), { s with files }) := by
  simp only [openSink, h, run_get_bind]
  cases s.files.addParents path >>= (·.append path []) <;> rfl

theorem run_openSink_console (h : ∀ path, arguments.logFile.map Outlet.ofPath ≠ some (.file path))
    (p : LoggingPreferences) : ∃ sink, (openSink arguments p).run s = (.ok sink, s) ∧
      ∀ x ∈ sink, ∀ path, x.outlet ≠ .file path := by
  unfold openSink
  rcases hfile : arguments.logFile.map Outlet.ofPath with _ | _ | _ | path
  · refine ⟨_, rfl, ?_⟩
    split <;> simp
  · exact ⟨_, rfl, by simp⟩
  · exact ⟨_, rfl, by simp⟩
  · exact absurd hfile (h path)

theorem run_openSink {p : LoggingPreferences} {sink : Option Sink}
    (h : (openSink arguments p).run s = (.ok sink, s')) : ∃ q, SameBut q s.files s'.files ∧
      ((∃ path ∈ arguments.logFile, s'.files.stop path = .ok q) ∨ q = []) ∧
      ∀ x ∈ sink, ∀ path, x.outlet = .file path →
        s'.files.stop path = .ok q ∧ (s'.files.content? q).isSome = true := by
  by_cases hfile : ∃ path, arguments.logFile.map Outlet.ofPath = some (.file path)
  · obtain ⟨path, hfile⟩ := hfile
    rw [run_openSink_file hfile] at h
    cases hopened : s.files.addParents path >>= (·.append path []) with
    | error e =>
      rw [hopened] at h
      cases h
    | ok files =>
      rw [hopened] at h
      obtain ⟨hsink, rfl⟩ := Prod.mk.inj h
      obtain rfl := Except.ok.inj hsink
      obtain ⟨q, hsame, hstop, hcontent⟩ := FileTree.sameBut_opened hopened
      obtain ⟨logFile, hlogFile, hpath⟩ := Option.map_eq_some_iff.1 hfile
      obtain rfl := Outlet.ofPath_eq_file hpath
      refine ⟨q, hsame, .inl ⟨logFile, hlogFile, hstop⟩, ?_⟩
      rintro x hx path' houtlet
      obtain rfl := Option.some.inj hx
      obtain rfl := Outlet.file.inj houtlet
      exact ⟨hstop, hcontent⟩
  · obtain ⟨sink', hrun, hconsole⟩ := run_openSink_console (s := s) (not_exists.1 hfile) p
    obtain ⟨hsink, rfl⟩ := Prod.mk.inj (hrun.symm.trans h)
    obtain rfl := Except.ok.inj hsink
    exact ⟨[], .refl _ _, .inr rfl,
      fun x hx path houtlet => absurd houtlet (hconsole x hx path)⟩

end

structure Answer where
  status : Nat
  output : String
  errors : String

def Failure.answer [Limits] (e : Failure) : Answer := ⟨2, "", s!"error: {e.message}\n"⟩

/-- A run ends with an answer, behind the events that it logs. -/
def Context.Answers (c : Context) (s : Screen) (answer : Answer) (r : Nat × Screen) : Prop :=
  ∃ events, r = (answer.status, (c.log events s).add answer.output answer.errors)

def Context.Gives [Limits] (c : Context) (s : Screen) (answer : Answer) (x : Work Nat) : Prop :=
  ∃ events, x.run s = (.ok answer.status, (c.log events s).add answer.output answer.errors) ∨
    ∃ e : Failure, answer = e.answer ∧ x.run s = (.error e, c.log events s)

theorem Context.Answers.eq_of_none {answer : Answer} {r : Nat × Screen}
    (h : c.Answers s answer r) (hsink : c.sink = none) :
    r = (answer.status, s.add answer.output answer.errors) := by
  obtain ⟨events, rfl⟩ := h
  rw [c.log_of_none hsink]

section

variable {setting : Setting} {files : FileTree} {words : List Word} {a : Arguments}

theorem run_prepare (h : (prepare setting a).run { files } = (.ok c, s)) :
    c.setting = setting ∧ ∃ q, c.LogsTo s.files q ∧ SameBut q files s.files ∧
      ((∃ path ∈ a.logFile, s.files.stop path = .ok q) ∨ q = []) := by
  rw [prepare, run_bind] at h
  have hfiles := run_readSettings (s := { files }) setting.environment a.config
  rcases hsettings : (readSettings setting.environment a.config).run { files } with
    ⟨_ | settings, s'⟩
  · rw [hsettings] at h
    cases h
  · rw [hsettings] at h hfiles
    subst hfiles
    dsimp only at h
    rw [run_bind] at h
    rcases hopen : (openSink a settings.logging).run { files } with ⟨_ | sink, s'⟩
    · rw [hopen] at h
      cases h
    · rw [hopen] at h
      obtain ⟨hc, rfl⟩ := Prod.mk.inj h
      obtain rfl := Except.ok.inj hc
      obtain ⟨q, hsame, hstop, hsink⟩ := run_openSink hopen
      exact ⟨rfl, q, hsink, hsame, hstop⟩

variable [Limits]

theorem run_of_prepare_error {e : Failure} (hread : read words = .ok a)
    (hprepare : (prepare setting a).run { files } = (.error e, s)) :
    run setting files words = (2, s.add "" s!"error: {e.message}\n") := by
  have hrun : (runArguments setting a).run { files } = (.error e, s) := by
    rw [runArguments, run_bind_error hprepare]
  simp only [run, hread, run_tryCatch, hrun, stopWith, run_bind_ok (run_complain _)]
  rfl

theorem run_of_prepare (hread : read words = .ok a)
    (hprepare : (prepare setting a).run { files } = (.ok c, s)) : run setting files words =
      match (runCommand c a.command).run (c.log [a.loaded] s) with
      | (.ok status, s') => (status, s')
      | (.error e, s') => (2, (c.log [e.event] s').add "" s!"error: {e.message}\n") := by
  have hrun : (runArguments setting a).run { files } =
      (tryCatch (runCommand c a.command) fun e => do
        c.report [e.event]
        throw e).run (c.log [a.loaded] s) := by
    rw [runArguments, run_bind_ok hprepare]
    rfl
  rw [run_tryCatch] at hrun
  rcases hcommand : (runCommand c a.command).run (c.log [a.loaded] s) with ⟨e | status, s'⟩ <;>
    rw [hcommand] at hrun
  · have hreport : (do
        c.report [e.event]
        throw e : Work Nat).run s' = (.error e, c.log [e.event] s') := run_bind_ok (run_report _)
    dsimp only at hrun
    rw [hreport] at hrun
    simp only [run, hread, run_tryCatch, hrun, stopWith, run_bind_ok (run_complain _)]
    rfl
  · simp only [run, hread, run_tryCatch, hrun]

theorem answers_of_gives {answer : Answer} (hread : read words = .ok a)
    (hprepare : (prepare setting a).run { files } = (.ok c, s))
    (hcommand : ∀ events, c.Gives (c.log events s) answer (runCommand c a.command)) :
    c.Answers s answer (run setting files words) := by
  rw [run_of_prepare hread hprepare]
  obtain ⟨events, hevents | ⟨e, rfl, hevents⟩⟩ := hcommand [a.loaded]
  · rw [hevents, c.log_log]
    exact ⟨_, rfl⟩
  · simp only [hevents, c.log_log]
    exact ⟨_, rfl⟩

end

end PlatformRules.Console
