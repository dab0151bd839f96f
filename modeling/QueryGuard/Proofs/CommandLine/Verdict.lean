import Mathlib
import QueryGuard.CommandLine.Run
import QueryGuard.Proofs.Sql.Torn

/-!
The verdict of a run that checks a query. Where the configuration is read is said as a relation
between what is there and the one place that is looked at; what the options ask about, as a
relation between the options and a query. Main statement: a run is refused where the place says no
configuration or the parameters are no parameters, and else it ends as the validation does, also
where there is no report on the query.
-/

namespace QueryGuard

/-! ### The configuration -/

namespace Config

variable {s : Sources} {named place : Option String} {c : Config}

/-- The place that a configuration is read from: the file that is named, else the usual file of the
working directory, else that of the user, each if it is there. Where none is, nothing is read. -/
inductive ReadsFrom (s : Sources) (named : Option String) : Option String → Prop where
  | ofName {path : String} : named = some path → ReadsFrom s named (some path)
  | ofLocal : named = none → (s.files localFile).isFile → ReadsFrom s named (some localFile)
  | ofUser {directory : String} : named = none → ¬ (s.files localFile).isFile →
      s.userDirectory = some directory → (s.files (userFile directory)).isFile →
      ReadsFrom s named (some (userFile directory))
  | ofNone : named = none → ¬ (s.files localFile).isFile →
      (∀ directory, s.userDirectory = some directory → ¬ (s.files (userFile directory)).isFile) →
      ReadsFrom s named none

/-- The configuration that is said there; where nothing is read it is the standard one. -/
inductive SaidAt (files : String → FileState) : Option String → Config → Prop where
  | file {path content : String} {c : Config} : files path = .text content →
      ofToml? content = some c → SaidAt files (some path) c
  | standard : SaidAt files none standard

lemma file?_of_readsFrom (h : ReadsFrom s named place) : s.file? named = place := by
  unfold Sources.file? usualFiles
  cases h with
  | ofName h => rw [h, Option.some_or]
  | ofLocal h hl => simp only [h, Option.none_or, List.find?_cons, hl]
  | ofUser h hl hd hu => simp [h, hl, hd, hu]
  | ofNone h hl hu =>
    simp only [h, Option.none_or, List.find?_cons, hl, List.find?_eq_none]
    intro path hp
    obtain ⟨directory, hd, rfl⟩ := Option.map_eq_some_iff.1 (Option.mem_toList.1 hp)
    exact hu directory hd

/-- There is a place to read from. -/
lemma exists_readsFrom (s : Sources) (named : Option String) :
    ∃ place, ReadsFrom s named place := by
  cases hn : named with
  | some path => exact ⟨_, .ofName rfl⟩
  | none =>
    by_cases hl : (s.files localFile).isFile
    · exact ⟨_, .ofLocal rfl hl⟩
    · by_cases hu : ∃ directory, s.userDirectory = some directory ∧
          (s.files (userFile directory)).isFile
      · obtain ⟨directory, hd, hf⟩ := hu
        exact ⟨_, .ofUser rfl hl hd hf⟩
      · exact ⟨_, .ofNone rfl hl fun directory hd hf => hu ⟨directory, hd, hf⟩⟩

lemma load_of_saidAt (hp : ReadsFrom s named place) (h : SaidAt s.files place c) :
    load s named = .ok { c with enabled := (s.enabled.bind enables?).getD c.enabled } := by
  unfold load
  rw [file?_of_readsFrom hp]
  cases h with
  | file hf hc => simp only [ofFile, hf, hc]; rfl
  | standard => rfl

/-- Where nothing is said, the place is a file, and the error names it. -/
lemma load_of_not_saidAt (hp : ReadsFrom s named place) (h : ¬ ∃ c, SaidAt s.files place c) :
    ∃ path, place = some path ∧ load s named = .error (.config path) := by
  unfold load
  rw [file?_of_readsFrom hp]
  cases place with
  | none => exact absurd ⟨_, .standard⟩ h
  | some path =>
    refine ⟨path, rfl, ?_⟩
    have he : ofFile s.files path = .error (.config path) := by
      unfold ofFile
      split
      · next content hf =>
        cases hc : ofToml? content with
        | none => rfl
        | some c => exact absurd ⟨c, .file hf hc⟩ h
      · rfl
    simp only [he]
    rfl

end Config

namespace CommandLine

namespace Options

variable {o : Options} {sql : String} {q : Query}

/-- A configuration that was read, with what the variable and then the options say of it. -/
def adjusted (o : Options) (s : Config.Sources) (c : Config) : Config :=
  { enabled :=
      if o.has .disable then false else (s.enabled.bind Config.enables?).getD c.enabled
    verbose := if o.has .verbose then true else c.verbose
    dialect := o.dialect.getD c.dialect
    policy := c.policy }

/-- The query that the options ask about: a text alone, or one with the parameters that a JSON
array, object or `null` stands for. -/
inductive AsksAbout (o : Options) (sql : String) : Query → Prop where
  | alone : o.params = none → AsksAbout o sql (.raw sql)
  | withNull {text : String} : o.params = some text → Json.parse? text = some .null →
      AsksAbout o sql (.prepared sql .empty)
  | withArray {text : String} {items : List Json} : o.params = some text →
      Json.parse? text = some (.array items) →
      AsksAbout o sql (.prepared sql (.positional (items.map Value.ofJson)))
  | withObject {text : String} {fields : List (String × Json)} : o.params = some text →
      Json.parse? text = some (.object fields) →
      AsksAbout o sql
        (.prepared sql ⟨fields.map fun f => (ParamKey.ofField f.1, Value.ofJson f.2)⟩)

lemma config?_of_saidAt {s : Config.Sources} {place : Option String} {c : Config}
    (hp : Config.ReadsFrom s o.config place) (h : Config.SaidAt s.files place c) :
    o.config? s = .ok (o.adjusted s c) := by
  simp only [config?, Config.load_of_saidAt hp h, apply, adjusted, Except.ok.injEq,
    Config.mk.injEq, and_true]
  constructor
  · cases o.has .disable <;> simp
  · cases o.has .verbose <;> simp

lemma config?_of_not_saidAt {s : Config.Sources} {place : Option String}
    (hp : Config.ReadsFrom s o.config place) (h : ¬ ∃ c, Config.SaidAt s.files place c) :
    ∃ path, place = some path ∧ o.config? s = .error (.input (.config path)) := by
  obtain ⟨path, hpath, hl⟩ := Config.load_of_not_saidAt hp h
  exact ⟨path, hpath, by simp only [config?, hl]⟩

lemma query?_of_asksAbout (h : o.AsksAbout sql q) : o.query? sql = .ok q := by
  unfold query?
  cases h with
  | alone hp => rw [hp]
  | withNull hp hv => simp only [hp, hv, Params.ofJson]
  | withArray hp hv => simp only [hp, hv, Params.ofJson]
  | withObject hp hv => simp only [hp, hv, Params.ofJson]

/-- What asks about nothing is refused, and not for how the arguments are used. -/
lemma query?_of_not_asksAbout (h : ¬ ∃ q, o.AsksAbout sql q) :
    ∃ f, f.lines = ["Error: " ++ f.message] ∧ o.query? sql = .error f := by
  unfold query?
  cases hp : o.params with
  | none => exact absurd ⟨_, .alone hp⟩ h
  | some text =>
    cases hv : Json.parse? text with
    | none => exact ⟨.paramsNotJson, rfl, by simp only [hv]⟩
    | some v =>
      simp only [hv]
      cases v with
      | null => exact absurd ⟨_, .withNull hp hv⟩ h
      | array items => exact absurd ⟨_, .withArray hp hv⟩ h
      | object fields => exact absurd ⟨_, .withObject hp hv⟩ h
      | bool b => exact ⟨.input (.paramsShape _), rfl, rfl⟩
      | int n => exact ⟨.input (.paramsShape _), rfl, rfl⟩
      | float x => exact ⟨.input (.paramsShape _), rfl, rfl⟩
      | string s => exact ⟨.input (.paramsShape _), rfl, rfl⟩

end Options

/-! ### Outcomes -/

namespace Outcome

/-- A run that ends without a report: nothing is printed but a reason, and no notification. -/
structure IsRefusal (x : Outcome) : Prop where
  code : x.code = 2
  output : x.output = ""
  errors : ∀ n : Notification, x.errors ≠ unlines (alertLines n)

/-- A run that breaks off: nothing is printed but a reason, and no notification. -/
structure IsBrokenOff (x : Outcome) : Prop where
  code : x.code = 101
  output : x.output = ""
  errors : ∀ n : Notification, x.errors ≠ unlines (alertLines n)

/-- A run that ends as the report says. -/
structure Conveys (x : Outcome) (o : Options) (r : Report) : Prop where
  code : x.code = if r.status = .error then 1 else 0
  output : o.format = some .json → x.output = r.toJson.pretty ++ "\n"
  errors : x.errors = if o.has .notify ∧ r.status = .error then
    unlines (alertLines ⟨r.errorCount, r.status, r.summary⟩) else ""

/-- A run that ends as a validation does: it conveys the report, or breaks off where there is
none. -/
inductive Follows (x : Outcome) (o : Options) : Option Report → Prop where
  | report {r : Report} : x.Conveys o r → Follows x o (some r)
  | brokenOff : x.IsBrokenOff → Follows x o none

lemma unlines_nil : unlines [] = "" := rfl

lemma unlines_singleton (l : String) : unlines [l] = l ++ "\n" := by
  simp [unlines, String.join]

lemma head?_unlines_alertLines (n : Notification) :
    (unlines (alertLines n)).toList.head? = some 's' := by
  have hname : (toString programName).toList.head? = some 's' := by decide +kernel
  simp [unlines, alertLines, String.join, hname]

/-- A reason is not read as a notification. -/
lemma isRefusal_ofFailure {f : Failure} (h : f.lines = ["Error: " ++ f.message]) :
    (ofFailure f).IsRefusal := by
  refine ⟨rfl, rfl, fun n e => ?_⟩
  have hreason : (unlines f.lines).toList.head? = some 'E' := by
    rw [h, unlines_singleton, String.toList_append, String.toList_append]
    rfl
  have e := congrArg (fun s : String => s.toList.head?) e
  cases hreason.symm.trans (e.trans (head?_unlines_alertLines n))

lemma isBrokenOff_brokenOff : (brokenOff []).IsBrokenOff := by
  refine ⟨rfl, rfl, fun n e => ?_⟩
  have hreason : (brokenOff []).errors.toList.head? = some 't' := by decide +kernel
  rw [e, head?_unlines_alertLines] at hreason
  cases hreason

lemma conveys_ofReport (o : Options) (sql : String) (r : Report) :
    (ofReport o sql r).Conveys o r := by
  refine ⟨by simp [ofReport, Report.isError], fun hf => ?_, ?_⟩
  · simp only [ofReport, hf]
    exact unlines_singleton _
  · have hn : r.notification? =
        if r.status = .error then some ⟨r.errorCount, r.status, r.summary⟩ else none := by
      simp [Report.notification?, Report.isError]
    simp only [ofReport, hn]
    by_cases hb : o.has .notify
    · by_cases hs : r.status = .error
      · simp [hb, hs]
      · simp [hb, hs, unlines_nil]
    · simp [hb, unlines_nil]

/-- The outcome of a validation, with a report or without. -/
lemma follows_ofReport (o : Options) (sql : String) (report? : Option Report) :
    ((report?.map (ofReport o sql)).getD (brokenOff [])).Follows o report? := by
  cases report? with
  | none => exact .brokenOff isBrokenOff_brokenOff
  | some r => exact .report (conveys_ofReport o sql r)

end Outcome

/-! ### The verdict -/

variable {s : Surroundings} {args : List String} {o : Options} {sql : String}

lemma run_of_ok (h : Request.ofArguments? s.configVariable args = some (.run o (.check sql)))
    {x : Outcome} (hx : act s o (.check sql) = .ok x) : run s args = x := by
  simp only [run, run?, h, hx]

lemma run_of_error (h : Request.ofArguments? s.configVariable args = some (.run o (.check sql)))
    {f : Failure} (hf : act s o (.check sql) = .error f) : run s args = .ofFailure f := by
  simp only [run, run?, h, hf]

section

variable {place : Option String} {c : Config} {q : Query}
  (h : Request.ofArguments? s.configVariable args = some (.run o (.check sql)))
  (hp : Config.ReadsFrom s.sources o.config place)

include h hp

/-- Where nothing is said, the run ends with an error that names the file. -/
lemma run_of_not_saidAt (hc : ¬ ∃ c, Config.SaidAt s.sources.files place c) :
    ∃ path, place = some path ∧ run s args = .ofFailure (.input (.config path)) := by
  obtain ⟨path, hpath, he⟩ := Options.config?_of_not_saidAt hp hc
  refine ⟨path, hpath, run_of_error h ?_⟩
  simp only [act, he]
  rfl

lemma isRefusal_run_of_not_asksAbout (hc : Config.SaidAt s.sources.files place c)
    (hq : ¬ ∃ q, o.AsksAbout sql q) : (run s args).IsRefusal := by
  obtain ⟨f, hf, hq⟩ := Options.query?_of_not_asksAbout hq
  have e : run s args = .ofFailure f := by
    refine run_of_error h ?_
    simp only [act, Options.config?_of_saidAt hp hc, hq]
    rfl
  rw [e]
  exact Outcome.isRefusal_ofFailure hf

lemma follows_run_of_asksAbout (hc : Config.SaidAt s.sources.files place c)
    (hq : o.AsksAbout sql q) :
    (run s args).Follows o ((o.adjusted s.sources c).validate? q (some s.context)) := by
  have e : act s o (.check sql) =
      .ok ((((o.adjusted s.sources c).validate? q (some s.context)).map
        (.ofReport o sql)).getD (.brokenOff [])) := by
    simp only [act, Options.config?_of_saidAt hp hc, Options.query?_of_asksAbout hq]
    rfl
  rw [run_of_ok h e]
  exact Outcome.follows_ofReport o sql _

end

end CommandLine

end QueryGuard
