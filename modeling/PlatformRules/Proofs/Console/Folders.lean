import PlatformRules.Proofs.Console.Answers
import PlatformRules.Proofs.Console.Words

namespace PlatformRules.Console

open FileTree (SameBut Refills)

variable {c : Context} {s s' : Screen} {t u files : FileTree} {path : Path} {paths : List Path}
  {choice : MachineChoice} {json : Bool} {q p rest : Place} {setting : Setting}
  {words : List Word} {a : Arguments} {folder : Path}

theorem run_find {paths : List Path} (hpaths : s.files.documents path = .ok paths)
    (hne : paths ≠ []) : (findDocuments path).run s = (.ok paths, s) := by
  rw [findDocuments, run_get_bind, hpaths]
  cases paths with
  | nil => exact absurd rfl hne
  | cons path paths => rfl

theorem found_after (htree : files.IsTree) (hsame : SameBut q files s.files)
    (hq : FileTree.documentBelow? p q = none) :
    s.files.documentsBelow p = files.documentsBelow p ∧
      ∀ rest ∈ files.documentsBelow p, s.files.IsDocumentBelow p rest :=
  ⟨hsame.documentsBelow hq, fun _ hrest =>
    (hsame.document hq (htree.mem_documentsBelow_iff.1 hrest)).2⟩

section

variable [Limits]

def Context.evaluation (c : Context) (choice : MachineChoice) (files : FileTree)
    (paths : List Path) : EvaluationReport :=
  ⟨choice.over {}, paths.map fun path =>
    (evaluateDocument c.settings.evaluation (choice.over {}) files path).1⟩

theorem path_evaluateDocument (p : EvaluationPreferences) (m : Machine) (files : FileTree)
    (path : Path) : (evaluateDocument p m files path).1.path = path := by
  unfold evaluateDocument
  split <;> rfl

theorem evaluateDocument_congr (p : EvaluationPreferences) (m : Machine)
    (h : u.readText path = t.readText path) :
    evaluateDocument p m u path = evaluateDocument p m t path := by
  rw [evaluateDocument, evaluateDocument, readDocument, readDocument, h]

theorem run_evaluateFound (c : Context) (m : Machine) (path : Path) (s : Screen) :
    ∃ events, (evaluateFound c m path).run s =
      (.ok (evaluateDocument c.settings.evaluation m s.files path).1, c.log events s) := by
  rw [evaluateFound, run_get_bind]
  rcases evaluateDocument c.settings.evaluation m s.files path with ⟨outcome, events⟩
  by_cases hsink : c.sink.isSome = true
  · simp only [hsink, if_true, Context.reportOf]
    exact ⟨_, run_bind_ok (run_report _)⟩
  · refine ⟨[], ?_⟩
    simp only [hsink]
    rfl

theorem run_print_report (r : EvaluationReport) (s : Screen) :
    let x : Work Nat := do
      printEvaluation c json r
      return r.exitStatus
    let answer := r.answer c.setting.now json
    x.run s = (.ok answer.status, s.add answer.output answer.errors) ∨
      ∃ e : Failure, answer = e.answer ∧ x.run s = (.error e, s) := by
  cases json with
  | true =>
    simp only [EvaluationReport.answer, printEvaluation, if_true]
    cases r.toJson? c.setting.now with
    | none => exact .inr ⟨.pathNotText, rfl, rfl⟩
    | some j => exact .inl (run_bind_ok (run_print _))
  | false =>
    refine .inl (run_bind_ok (a := ()) ?_)
    simp only [EvaluationReport.answer, printEvaluation]
    refine run_bind_ok (run_forIn fun o s => ?_)
    rw [run_bind_ok (run_forM_print _), run_bind_ok (run_forM_complain _), Screen.add_add]
    simp only [String.append_empty, String.empty_append]
    rfl

theorem gives_evaluate (hdetect : choice.detect = false)
    (hpaths : s.files.documents path = .ok paths) (hne : paths ≠ [])
    (hread : ∀ path ∈ paths, ∀ events, (c.log events s).files.readText path = t.readText path) :
    c.Gives s ((c.evaluation choice t paths).answer c.setting.now json)
      (evaluate c path choice json) := by
  let r := c.evaluation choice t paths
  have hmachine : (chooseMachine c choice).run s = (.ok r.machine, s) := by
    rw [chooseMachine, hdetect]
    rfl
  have hfound : ∀ path ∈ paths, ∀ events, ∃ more,
      (evaluateFound c r.machine path).run (c.log events s) =
        (.ok (evaluateDocument c.settings.evaluation r.machine t path).1, c.log more s) := by
    intro path hpath events
    obtain ⟨more, hrun⟩ := run_evaluateFound c r.machine path (c.log events s)
    refine ⟨events ++ more, ?_⟩
    rw [hrun, evaluateDocument_congr _ _ (hread path hpath events), c.log_log]
  let begun := [(Event.info "Evaluating documents").putAll
    [("count", toString paths.length), ("machine", r.machine.display)]]
  obtain ⟨events, hdocuments⟩ := run_mapM paths hfound begun
  refine ⟨events, ?_⟩
  rw [evaluate, run_bind_ok (run_find hpaths hne), evaluateEach, run_bind_ok hmachine,
    run_bind_ok (run_report begun), run_bind_ok hdocuments]
  exact run_print_report r _

theorem gives_evaluate_error {e : FileTree.Unreadable}
    (hpaths : s.files.documents path = .error e) :
    c.Gives s (Failure.unreadable e.path e.reason).answer (evaluate c path choice json) := by
  refine ⟨[], .inr ⟨_, rfl, run_bind_error ?_⟩⟩
  rw [findDocuments, run_get_bind, hpaths]
  rfl

/-- What a run on the path of a document answers: its outcome as the only one, as far as the path
can be opened. -/
structure Context.AnswersAlone (c : Context) (s : Screen) (m : Machine) (now : Instant)
    (json : Bool) (o : DocumentOutcome) (r : Nat × Screen) : Prop where
  status : r.1 = (o.answer m now json).status
  alone : o.path.length ≤ FileTree.pathLimit → c.Answers s (o.answer m now json) r
  unopened : FileTree.pathLimit < o.path.length →
    o.result = .error (.unreadable o.path FileError.longName.message) ∧
      c.Answers s (Failure.unreadable o.path "no such file or directory").answer r

section

variable (hlogs : c.LogsTo s.files q) (hq : FileTree.documentBelow? p q = none)
  (hplace : s.files.place folder = .ok p) (hdetect : choice.detect = false)
include hlogs hq hplace hdetect

theorem gives_folder (hfile : (s.files.file? p).isSome = false)
    (hfolder : s.files.hasFolder p = true)
    (hopen : ∀ q ∈ s.files.foldersBelow p, (FileTree.join folder q).length ≤ FileTree.pathLimit)
    (hfound : ∀ rest ∈ s.files.documentsBelow p, s.files.IsDocumentBelow p rest)
    (hne : s.files.documentsBelow p ≠ []) (events : List Event) :
    c.Gives (c.log events s)
      ((c.evaluation choice s.files ((s.files.documentsBelow p).map (FileTree.join folder))).answer
        c.setting.now json)
      (evaluate c folder choice json) := by
  have hfill := hlogs.refills_log events
  have hpaths := FileTree.documents_folder (hfill.follow hplace)
    (by rw [hfill.file?_folder hfolder, hfile]) (hfill.folders p hfolder)
    (by rwa [hfill.foldersBelow])
  rw [hfill.documentsBelow hq] at hpaths
  refine gives_evaluate hdetect hpaths (by simpa using hne) fun path hpath more => ?_
  obtain ⟨rest, hrest, rfl⟩ := List.mem_map.1 hpath
  rw [c.log_log]
  exact (hlogs.refills_log (events ++ more)).readText hq hplace (hfound rest hrest)

theorem answersAlone_document (hdocument : s.files.IsDocumentBelow p rest)
    (hpath : path = FileTree.join folder rest) (hread : read words = .ok a)
    (hcommand : a.command = .evaluate path choice json)
    (hprepare : (prepare setting a).run { files } = (.ok c, s)) :
    c.AnswersAlone s (choice.over {}) c.setting.now json
      (evaluateDocument c.settings.evaluation (choice.over {}) s.files path).1
      (run setting files words) := by
  have ho := path_evaluateDocument c.settings.evaluation (choice.over {}) s.files path
  have hpaths := fun events => FileTree.documents_document
    ((hlogs.refills_log events).follow hplace) ((hlogs.refills_log events).document hq hdocument).2
  simp only [← hpath] at hpaths
  by_cases hlength : path.length ≤ FileTree.pathLimit
  · have hanswers : c.Answers s ((c.evaluation choice s.files [path]).answer c.setting.now json)
        (run setting files words) := by
      refine answers_of_gives hread hprepare fun events => ?_
      rw [hcommand]
      refine gives_evaluate hdetect ((hpaths events).trans (if_neg (Nat.not_lt.2 hlength)))
        (by simp) fun path' hpath' more => ?_
      rw [List.mem_singleton.1 hpath', c.log_log, hpath]
      exact (hlogs.refills_log (events ++ more)).readText hq hplace hdocument
    refine ⟨?_, fun _ => hanswers, fun hlong => ?_⟩
    · obtain ⟨events, hrun⟩ := hanswers
      rw [hrun]
      rfl
    · rw [ho] at hlong
      exact absurd hlength (Nat.not_le.2 hlong)
  · have hlong := Nat.not_le.1 hlength
    have hanswers := answers_of_gives hread hprepare fun events => by
      rw [hcommand]
      exact gives_evaluate_error ((hpaths events).trans (if_pos hlong))
    have htext : s.files.readText path = .error .longName := by
      rw [hpath] at hlong ⊢
      exact FileTree.readText_document hplace hdocument hlong
    have hresult : evaluateDocument c.settings.evaluation (choice.over {}) s.files path =
        (⟨path, .error (.unreadable path FileError.longName.message)⟩, []) := by
      simp [evaluateDocument, readDocument, htext, Except.mapError]
    rw [hresult]
    refine ⟨?_, fun hlength' => absurd hlength' hlength, fun _ => ⟨rfl, hanswers⟩⟩
    obtain ⟨events, hrun⟩ := hanswers
    rw [hrun, DocumentOutcome.status_answer_of_error _ _ rfl]
    rfl

end

theorem answers_folder (htree : files.IsTree) (hplace : files.place folder = .ok p)
    (hfolder : files.hasFolder p = true) (hne : files.documentsBelow p ≠ [])
    (hread : read words = .ok a) (hcommand : a.command = .evaluate folder choice json)
    (hdetect : choice.detect = false) (hprepare : (prepare setting a).run { files } = (.ok c, s))
    (hlogs : c.LogsTo s.files q) (hsame : SameBut q files s.files)
    (hq : FileTree.documentBelow? p q = none)
    (hopen : ∀ q ∈ s.files.foldersBelow p, (FileTree.join folder q).length ≤ FileTree.pathLimit) :
    c.Answers s ((c.evaluation choice s.files
      ((files.documentsBelow p).map (FileTree.join folder))).answer c.setting.now json)
      (run setting files words) := by
  obtain ⟨hbelow, hfound⟩ := found_after htree hsame hq
  refine answers_of_gives hread hprepare fun events => ?_
  rw [hcommand, ← hbelow]
  exact gives_folder hlogs hq (hsame.follow hplace) hdetect
    (by rw [hsame.file?_folder hfolder, htree.file?_folder hfolder]) (hsame.folders p hfolder)
    hopen (by rwa [hbelow]) (by rwa [hbelow]) events

end

section

variable [Limits]

section

variable (henvironment : setting.environment = [])
include henvironment

omit [Limits] in
theorem run_prepare_silent (command : Command) : (prepare setting { command }).run { files } =
    (.ok ⟨setting, .ofEnvironment [], none⟩, { files }) := by
  obtain ⟨_, host, now⟩ := setting
  subst henvironment
  rfl

variable (hplace : files.place folder = .ok p)
include hplace

theorem run_folder_silent (htree : files.IsTree) (hfolder : files.hasFolder p = true)
    (hbelow : files.foldersBelow p = []) (hne : files.documentsBelow p ≠ [])
    (hdetect : choice.detect = false)
    (hread : read words = .ok { command := .evaluate folder choice json }) :
    let c : Context := ⟨setting, .ofEnvironment [], none⟩
    let answer := (c.evaluation choice files
      ((files.documentsBelow p).map (FileTree.join folder))).answer setting.now json
    run setting files words = (answer.status, Screen.add { files } answer.output answer.errors) :=
  have hanswers := answers_folder (q := []) htree hplace hfolder hne hread rfl hdetect
    (run_prepare_silent henvironment _) (fun _ hsink => nomatch hsink) (.refl _ _)
    (by simp [FileTree.documentBelow?, Place.below?]) (by simp [hbelow])
  hanswers.eq_of_none rfl

theorem run_document_silent (hdocument : files.IsDocumentBelow p rest)
    (hdetect : choice.detect = false)
    (hread : read words =
      .ok { command := .evaluate (FileTree.join folder rest) choice json }) :
    let c : Context := ⟨setting, .ofEnvironment [], none⟩
    c.AnswersAlone { files } (choice.over {}) setting.now json
      (evaluateDocument c.settings.evaluation (choice.over {}) files (FileTree.join folder rest)).1
      (run setting files words) :=
  answersAlone_document (q := []) (fun _ hsink => nomatch hsink)
    (by simp [FileTree.documentBelow?, Place.below?]) hplace hdetect hdocument rfl hread rfl
    (run_prepare_silent henvironment _)

end

theorem errors_run_long {words' : List Word} (henvironment : setting.environment = [])
    (htree : files.IsTree) (hplace : files.place folder = .ok p)
    (hfolder : files.hasFolder p = true) (hbelow : files.foldersBelow p = [])
    (hdocuments : files.documentsBelow p = [rest])
    (hlong : FileTree.pathLimit < (FileTree.join folder rest).length)
    (hread : read words = .ok { command := .evaluate folder { detect := false } false })
    (hread' : read words' =
      .ok { command := .evaluate (FileTree.join folder rest) { detect := false } false }) :
    let path := FileTree.join folder rest
    (run setting files words).2.errors =
        (Failure.unreadable path FileError.longName.message).answer.errors ∧
      (run setting files words').2.errors =
        (Failure.unreadable path "no such file or directory").answer.errors := by
  intro path
  have hdocument : files.IsDocumentBelow p rest := by
    rw [← htree.mem_documentsBelow_iff, hdocuments]
    exact List.mem_singleton_self rest
  have hrun := run_folder_silent henvironment hplace htree hfolder hbelow (by simp [hdocuments]) rfl
    hread
  have halone := run_document_silent henvironment hplace hdocument rfl hread'
  obtain ⟨hresult, hunopened⟩ := halone.unopened (by rwa [path_evaluateDocument])
  rw [path_evaluateDocument] at hresult hunopened
  rw [hdocuments] at hrun
  constructor
  · rw [hrun]
    exact (String.empty_append).trans (DocumentOutcome.errors_answer_of_error _ _ hresult)
  · rw [hunopened.eq_of_none rfl]
    exact String.empty_append

theorem run_not_text (henvironment : setting.environment = []) (htree : files.IsTree)
    (hplace : files.place folder = .ok p) (hfolder : files.hasFolder p = true)
    (hbelow : files.foldersBelow p = []) (hrest : rest ∈ files.documentsBelow p)
    (htext : Utf8.decode? (FileTree.join folder rest) = none) (hdetect : choice.detect = false)
    (hread : read words = .ok { command := .evaluate folder choice true }) :
    run setting files words = (2, Screen.add { files } "" Failure.pathNotText.answer.errors) := by
  have hrun := run_folder_silent henvironment hplace htree hfolder hbelow (List.ne_nil_of_mem hrest)
    hdetect hread
  let c : Context := ⟨setting, .ofEnvironment [], none⟩
  let r := c.evaluation choice files ((files.documentsBelow p).map (FileTree.join folder))
  have hnone : r.toJson? setting.now = none := by
    rw [← Option.not_isSome_iff_eq_none, r.isSome_toJson?, Bool.not_eq_true, List.all_eq_false]
    refine ⟨_, List.mem_map_of_mem (List.mem_map_of_mem hrest), ?_⟩
    rw [DocumentOutcome.toJson?, path_evaluateDocument, htext]
    exact Bool.false_ne_true
  have hanswer : r.answer setting.now true = Failure.pathNotText.answer := by
    rw [EvaluationReport.answer, if_pos rfl, hnone]
    rfl
  dsimp only at hrun
  rw [hrun, hanswer]
  rfl

theorem run_logged {logFile : Path} {level : LogLevel} {paths : List Path}
    (henvironment : setting.environment = [])
    (hread : read words =
      .ok { logFile, logLevel := some level, command := .evaluate folder choice json })
    (houtlet : Outlet.ofPath logFile = .file logFile)
    (hopened : files.addParents logFile >>= (·.append logFile []) = .ok files)
    (hlevel : level.admits .debug = false) (hpaths : files.documents folder = .ok paths)
    (hne : paths ≠ []) :
    let c : Context := ⟨setting, .ofEnvironment [], some ⟨.file logFile, false, level⟩⟩
    run setting files words = match (evaluateEach c paths choice json).run { files } with
      | (.ok status, s) => (status, s)
      | (.error e, s) => (2, (c.log [e.event] s).add "" s!"error: {e.message}\n") := by
  intro c
  let a : Arguments := { logFile, logLevel := some level, command := .evaluate folder choice json }
  have hprepare : (prepare setting a).run { files } = (.ok c, { files }) := by
    have hsettings : (readSettings setting.environment none).run { files } =
        (.ok (.ofEnvironment []), { files }) := by
      rw [henvironment]
      rfl
    have hsink : (openSink a {}).run { files } = (.ok c.sink, { files }) := by
      have hfile : a.logFile.map Outlet.ofPath = some (.file logFile) := congrArg some houtlet
      rw [run_openSink_file hfile]
      dsimp only
      rw [hopened]
      rfl
    rw [prepare, run_bind_ok hsettings]
    exact run_bind_ok hsink
  have hlogged : c.log [a.loaded] { files } = { files } := by
    refine if_neg ?_
    rw [show a.loaded.level = .debug from rfl, hlevel]
    exact Bool.false_ne_true
  have hcommand : (runCommand c a.command).run { files } =
      (evaluateEach c paths choice json).run { files } := run_bind_ok (run_find hpaths hne)
  have hrun := run_of_prepare hread hprepare
  rw [hlogged, hcommand] at hrun
  exact hrun

end

end PlatformRules.Console
