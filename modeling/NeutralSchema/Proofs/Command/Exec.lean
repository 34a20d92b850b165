import NeutralSchema.Command.Exec
import NeutralSchema.Proofs.FileSystem
import NeutralSchema.Proofs.Lowering.Rendering
import NeutralSchema.Proofs.Service.Endpoint
import NeutralSchema.Proofs.Service.Exchange

/-!
# Running a class on the service

What is posted holds the files that are named, character for character. The reply alone decides
whether the command succeeds, and nothing but the result of a run is printed. Main statements:
`request_carries_files`, `exec_sorts_replies`.
-/
namespace NeutralSchema.Command

open Json Service

/-- The paths of the files that are read, in order. -/
def ExecOptions.sources (options : ExecOptions) : List String :=
  options.code :: options.standardLibrary.toList

/-- The request that some options ask for. -/
def ExecOptions.request (fs : FileSystem) (options : ExecOptions) :
    Except LoadError Service.Request :=
  buildRequest fs options.code options.standardLibrary options.className options.methodName

/-- Whether a text is that of the standard library, which is empty if no file is named. -/
def IsLibrary (fs : FileSystem) : Option String → String → Prop
  | none, text => text = ""
  | some path, text => fs.HasText path text

section

variable {fs : FileSystem}

theorem readSource_eq_ok_iff {path text : String} :
    readSource fs path = .ok text ↔ fs.HasText path text := by
  rw [← FileSystem.read_eq_ok_iff, readSource]
  cases fs.read path <;> simp [Except.mapError]

theorem readSource_eq_error_iff {path : String} {e : LoadError} : readSource fs path = .error e
    ↔ ∃ cause, fs.read path = .error cause ∧ e = .unreadable path cause := by
  rw [readSource]
  cases fs.read path <;> simp [Except.mapError, eq_comm]

theorem readLibrary_eq_ok_iff {library : Option String} {text : String} :
    readLibrary fs library = .ok text ↔ IsLibrary fs library text := by
  cases library with
  | none => simp [readLibrary, IsLibrary, eq_comm]
  | some path => exact readSource_eq_ok_iff

theorem readLibrary_eq_error_iff {library : Option String} {e : LoadError} :
    readLibrary fs library = .error e
      ↔ ∃ path cause, library = some path ∧ fs.read path = .error cause
        ∧ e = .unreadable path cause := by
  cases library with
  | none => simp [readLibrary]
  | some path => simp [readLibrary, readSource_eq_error_iff]

variable {options : ExecOptions}

theorem request_eq_ok_iff {r : Service.Request} : options.request fs = .ok r
    ↔ fs.HasText options.code r.code ∧ IsLibrary fs options.standardLibrary r.standardLibrary
      ∧ r.className = options.className ∧ r.methodName = options.methodName.getD "main" := by
  rw [ExecOptions.request, buildRequest, ← readSource_eq_ok_iff, ← readLibrary_eq_ok_iff]
  obtain ⟨code, library, className, methodName⟩ := r
  rcases readSource fs options.code with e | text
  · simp [bind, Except.bind]
  · rcases readLibrary fs options.standardLibrary with e | library
    · simp [bind, Except.bind]
    · simp [bind, Except.bind, pure, Except.pure, Service.Request.of, defaultMethod, eq_comm]

/-- The first file that cannot be read is the one that is reported. -/
theorem request_eq_error_iff {e : LoadError} : options.request fs = .error e
    ↔ ∃ before path after cause, options.sources = before ++ path :: after
      ∧ (∀ p ∈ before, ∃ text, fs.HasText p text) ∧ fs.read path = .error cause
      ∧ e = .unreadable path cause := by
  rw [ExecOptions.request, buildRequest, ExecOptions.sources]
  constructor
  · intro refused
    cases code : readSource fs options.code with
    | error e' =>
      rw [code] at refused
      cases refused
      obtain ⟨cause, failed, rfl⟩ := readSource_eq_error_iff.mp code
      exact ⟨[], options.code, _, cause, rfl, by simp, failed, rfl⟩
    | ok text =>
      have found := readSource_eq_ok_iff.mp code
      cases library : readLibrary fs options.standardLibrary with
      | error e' =>
        rw [code, library] at refused
        cases refused
        obtain ⟨path, cause, named, failed, rfl⟩ := readLibrary_eq_error_iff.mp library
        rw [named]
        exact ⟨[options.code], path, [], cause, rfl, by simpa using ⟨text, found⟩, failed, rfl⟩
      | ok text' =>
        rw [code, library] at refused
        cases refused
  · rintro ⟨before, path, after, cause, listed, readable, failed, rfl⟩
    cases before with
    | nil =>
      obtain ⟨rfl, -⟩ := List.cons.inj listed
      rw [readSource_eq_error_iff.mpr ⟨cause, failed, rfl⟩]
      rfl
    | cons first rest =>
      -- a file before the one that fails is the class, so that the one that fails is the library
      obtain ⟨rfl, named⟩ := List.cons.inj listed
      obtain ⟨text, found⟩ := readable _ List.mem_cons_self
      have library : options.standardLibrary = some path := by
        refine Option.mem_toList.mp ?_
        rw [named]
        exact List.mem_append_right rest List.mem_cons_self
      rw [readSource_eq_ok_iff.mpr found,
        readLibrary_eq_error_iff.mpr ⟨path, cause, library, failed, rfl⟩]
      rfl

theorem exists_request_iff :
    (∃ r, options.request fs = .ok r) ↔ ∀ p ∈ options.sources, ∃ text, fs.HasText p text := by
  constructor
  · rintro ⟨r, built⟩
    obtain ⟨code, library, -⟩ := request_eq_ok_iff.mp built
    intro p mem
    rcases List.mem_cons.mp mem with rfl | mem
    · exact ⟨_, code⟩
    · rw [Option.mem_toList.mp mem] at library
      exact ⟨_, library⟩
  · intro readable
    cases built : options.request fs with
    | ok r => exact ⟨r, rfl⟩
    | error e =>
      obtain ⟨before, path, after, cause, listed, -, failed, -⟩ := request_eq_error_iff.mp built
      obtain ⟨text, found⟩ := readable path (by simp [listed])
      rw [FileSystem.read_eq_ok_iff.mpr found] at failed
      cases failed

theorem perform_execUnder [Json.Locating] {naming : Host.Naming} {service : ServiceReplies}
    {r : Service.Request} {endpoint : Url} (built : options.request fs = .ok r)
    (accepted : endpointUnder naming options.serviceUrl = .ok endpoint) :
    (execUnder naming fs options).perform fs service
      = ⟨replyResult (runningReport r endpoint) endpoint (service ⟨endpoint, r.body⟩), fs,
        some ⟨endpoint, r.body⟩⟩ := by
  rw [ExecOptions.request] at built
  simp only [execUnder, built, accepted, Action.perform]

end

/-- A request is built exactly if all files that are named exist and hold texts, and else the first
one that does not is reported. A request holds the texts of the files, the class and the method that
are named, `main` if none is. What is then posted is a document of four entries without any control
character (none below U+0020 is written as it is), which is decoded to that request and no other
one. A response that is written down is read back, with what it means. -/
theorem request_carries_files [Json.Locating] (naming : Host.Naming) (fs : FileSystem)
    (options : ExecOptions) (service : ServiceReplies) :
    ((∃ r, options.request fs = .ok r) ↔ ∀ p ∈ options.sources, ∃ text, fs.HasText p text)
      ∧ (∀ e, options.request fs = .error e
        ↔ ∃ before path after cause, options.sources = before ++ path :: after
          ∧ (∀ p ∈ before, ∃ text, fs.HasText p text) ∧ fs.read path = .error cause
          ∧ e = .unreadable path cause)
      ∧ (∀ r, options.request fs = .ok r
        ↔ fs.HasText options.code r.code ∧ IsLibrary fs options.standardLibrary r.standardLibrary
          ∧ r.className = options.className ∧ r.methodName = options.methodName.getD "main")
      ∧ (∀ r endpoint, options.request fs = .ok r →
        endpointUnder naming options.serviceUrl = .ok endpoint →
          ∃ body, ((execUnder naming fs options).perform fs service).posted = some ⟨endpoint, body⟩
            ∧ Json.read body = .ok (.object [("code", .string r.code),
              ("stdlibCode", .string r.standardLibrary), ("className", .string r.className),
              ("methodName", .string r.methodName)])
            ∧ (∀ other, decodeText Service.Request.decode body = .ok other ↔ other = r)
            ∧ ∀ c ∈ body.toList, 0x20 ≤ c.toNat)
      ∧ ∀ response : Response, Response.read response.encode.compact = .ok response
        ∧ (Response.read response.encode.compact).map Response.outcome = .ok response.outcome := by
  refine ⟨exists_request_iff, fun e => request_eq_error_iff, fun r => request_eq_ok_iff,
    fun r endpoint built accepted => ?_, fun response => ⟨response.read_compact, ?_⟩⟩
  · refine ⟨r.body, ?_, Json.read_compact r.isPlain_encode, r.decodeText_body,
      fun c => r.visible_body⟩
    rw [perform_execUnder built accepted]
  · rw [response.read_compact]
    rfl

/-- Options that name one file, on a service with a short name. -/
def soloOptions : ExecOptions := ⟨"a", none, "T", none, "http://h", 0⟩

theorem endpoint_soloOptions : endpointUnder .plain soloOptions.serviceUrl
    = .ok ⟨.http, "", "h", none, ["compile"], none, none⟩ := by
  have url : Address.read .plain "http://h"
    = .ok (.web ⟨.http, "", "h", none, [""], none, none⟩) := rfl
  exact endpointUnder_eq_ok_iff.mpr ⟨_, url, rfl⟩

/-- A file with a byte order mark, quotation marks, a backslash, a line break, a control character
and one beyond ASCII is the class and the library; and two paths that lead nowhere. -/
theorem request_carries_files_quoted :
    let text := "\uFEFF\"é\\\n\x01\""
    (∃ endpoint body, ((execUnder .plain (singleFile text)
          { soloOptions with standardLibrary := some "a" }).perform (singleFile text)
          fun _ => none).posted = some ⟨endpoint, body⟩
        ∧ decodeText Service.Request.decode body = .ok ⟨text, text, "T", "main"⟩)
      ∧ ({ soloOptions with code := "", standardLibrary := some "" } : ExecOptions).request
        (singleFile text) = .error (.unreadable "" .notFound) := by
  intro text
  obtain ⟨-, -, built, posts, -⟩ := request_carries_files .plain (singleFile text)
    { soloOptions with standardLibrary := some "a" } fun _ => none
  obtain ⟨-, refused, -⟩ := request_carries_files .plain (singleFile text)
    { soloOptions with code := "", standardLibrary := some "" } fun _ => none
  have found : (singleFile text).HasText "a" text :=
    FileSystem.read_eq_ok_iff.mp (read_singleFile text)
  obtain ⟨body, posted, -, decoded, -⟩ :=
    posts _ _ ((built ⟨text, text, "T", "main"⟩).mpr ⟨found, found, rfl, rfl⟩) endpoint_soloOptions
  exact ⟨⟨_, body, posted, (decoded _).mpr rfl⟩,
    (refused _).mpr ⟨[], "", [""], .notFound, rfl, by simp, rfl, rfl⟩⟩

/-- Whether the service answers what is posted with a response, and how it is written. -/
def Answers [Json.Locating] (naming : Host.Naming) (fs : FileSystem) (options : ExecOptions)
    (service : ServiceReplies) (response : Response) (document : Json) : Prop :=
  ∃ request endpoint sent, options.request fs = .ok request
    ∧ endpointUnder naming options.serviceUrl = .ok endpoint
    ∧ service ⟨endpoint, request.body⟩ = some sent
    ∧ Sorted sent.status sent.received.body (.ok response)
    ∧ Json.read sent.received.body = .ok document

section

variable [Json.Locating] {naming : Host.Naming} {fs : FileSystem} {options : ExecOptions}
  {service : ServiceReplies} {response : Response} {document : Json}

/-- The document of a response holds its texts. -/
theorem holdsText_of_answers
    (answers : Answers naming fs options service response document) :
    Response.HoldsText (Response.valueAt? "exceptionText" document) response.exception
      ∧ Response.HoldsText (Response.valueAt? "result" document) response.result := by
  obtain ⟨_, _, _, -, -, -, sorted, written⟩ := answers
  obtain ⟨v, written', held⟩ := Response.holdsText_of_read sorted.read_eq_ok
  rw [written] at written'
  cases written'
  exact held

/-- There is one answer at most. -/
theorem Answers.document_unique {response' : Response} {document' : Json}
    (first : Answers naming fs options service response document)
    (second : Answers naming fs options service response' document') : document = document' := by
  obtain ⟨_, _, _, built, accepted, replied, -, written⟩ := first
  obtain ⟨_, _, _, built', accepted', replied', -, written'⟩ := second
  cases built.symm.trans built'
  cases accepted.symm.trans accepted'
  cases replied.symm.trans replied'
  exact Except.ok.inj (written.symm.trans written')

theorem result_of_answers (answers : Answers naming fs options service response document) :
    ∃ errors, ((execUnder naming fs options).perform fs service).result
      = outcomeResult errors response.outcome := by
  obtain ⟨request, endpoint, sent, built, accepted, replied, sorted, -⟩ := answers
  refine ⟨runningReport request endpoint, ?_⟩
  rw [perform_execUnder built accepted, replied]
  simp only [replyResult, conclude_some, interpret_of_sorted sorted]

/-- Without an answer nothing is printed, and the command fails. -/
theorem result_of_no_answer (unanswered : ∀ response document,
    ¬Answers naming fs options service response document) :
    ((execUnder naming fs options).perform fs service).result.exit ≠ 0
      ∧ ((execUnder naming fs options).perform fs service).result.output = "" := by
  have fails (errors message : String) (cause : Option String) :
      (Result.givenUp errors message cause).exit ≠ 0
        ∧ (Result.givenUp errors message cause).output = "" := ⟨Nat.one_ne_zero, rfl⟩
  -- every way to no answer ends in a result that is given up
  cases built : options.request fs with
  | error e =>
    rw [ExecOptions.request] at built
    simp only [execUnder, built]
    exact fails _ _ _
  | ok request =>
    cases accepted : endpointUnder naming options.serviceUrl with
    | error e =>
      rw [ExecOptions.request] at built
      simp only [execUnder, built, accepted]
      exact fails _ _ _
    | ok endpoint =>
      rw [perform_execUnder built accepted]
      dsimp only
      cases replied : service ⟨endpoint, request.body⟩ with
      | none => exact fails _ _ _
      | some sent =>
        rw [replyResult, conclude_some]
        cases interpreted : interpret sent.status sent.received.body with
        | error e => exact fails _ _ _
        | ok response =>
          have sorted := interpret_eq_iff.mp interpreted
          obtain ⟨v, written, -⟩ := Response.holdsText_of_read sorted.read_eq_ok
          exact absurd ⟨request, endpoint, sent, built, accepted, replied, sorted, written⟩
            (unanswered response v)

omit [Json.Locating] in
theorem exit_outcomeResult (errors : String) (response : Response) :
    (outcomeResult errors response.outcome).exit = 0 ↔ response.exception = none := by
  obtain ⟨elapsed, exception, result⟩ := response
  cases exception <;> simp [Response.outcome, outcomeResult, Result.of]

omit [Json.Locating] in
theorem output_outcomeResult (errors : String) (response : Response) :
    (outcomeResult errors response.outcome).output
      = if response.exception = none then response.result.getD "" else "" := by
  obtain ⟨elapsed, exception, result⟩ := response
  cases exception <;> simp [Response.outcome, outcomeResult, Result.of]

/-- The command succeeds exactly if it is answered without an exception. -/
theorem exit_eq_zero_iff : ((execUnder naming fs options).perform fs service).result.exit = 0
    ↔ ∃ response document, Answers naming fs options service response document
      ∧ Response.HoldsText (Response.valueAt? "exceptionText" document) none := by
  constructor
  · intro succeeded
    by_cases answered : ∃ response document, Answers naming fs options service response document
    · obtain ⟨response, document, answers⟩ := answered
      obtain ⟨errors, result⟩ := result_of_answers answers
      rw [result, exit_outcomeResult] at succeeded
      exact ⟨response, document, answers, succeeded ▸ (holdsText_of_answers answers).1⟩
    · simp only [not_exists] at answered
      exact absurd succeeded (result_of_no_answer answered).1
  · rintro ⟨response, document, answers, quiet⟩
    obtain ⟨errors, result⟩ := result_of_answers answers
    rw [result, exit_outcomeResult]
    exact (holdsText_of_answers answers).1.unique quiet

theorem output_of_exit_ne_zero
    (failed : ((execUnder naming fs options).perform fs service).result.exit ≠ 0) :
    ((execUnder naming fs options).perform fs service).result.output = "" := by
  by_cases answered : ∃ response document, Answers naming fs options service response document
  · obtain ⟨response, document, answers⟩ := answered
    obtain ⟨errors, result⟩ := result_of_answers answers
    rw [result, ne_eq, exit_outcomeResult] at failed
    rw [result, output_outcomeResult, if_neg failed]
  · simp only [not_exists] at answered
    exact (result_of_no_answer answered).2

end

/-- Every status with every body is exactly one of four cases, and no body that denotes a response
is taken for the rejection of a host. Replies come as they are sent, but for a byte order mark and
the bodies of replies that have none. The command succeeds exactly if the files can be read, the URL
is accepted and the reply is a response in whose document the text of an exception is missing or
`null`. Then it prints the result of that document and nothing else, which is nothing if the result
is missing or `null`. Whenever it does not succeed it prints nothing. -/
theorem exec_sorts_replies [Json.Locating] (naming : Host.Naming) (fs : FileSystem)
    (options : ExecOptions) (service : ServiceReplies) :
    let done := ((execUnder naming fs options).perform fs service).result
    (∀ status body answer, interpret status body = answer ↔ Sorted status body answer)
      ∧ (∀ body response, Response.read body = .ok response → ¬Rejects body)
      ∧ (∀ endpoint sent, conclude endpoint (some sent) = interpret sent.status sent.received.body
        ∧ (sent.status ≠ 204 ∧ sent.status ≠ 304 → sent.body.toList.head? ≠ some '\uFEFF' →
          sent.received = sent))
      ∧ (done.exit = 0 ↔ ∃ response document,
        Answers naming fs options service response document
          ∧ Response.HoldsText (Response.valueAt? "exceptionText" document) none)
      ∧ (∀ response document, Answers naming fs options service response document →
        Response.HoldsText (Response.valueAt? "exceptionText" document) none →
          ∃ printed, Response.HoldsText (Response.valueAt? "result" document) printed
            ∧ done.output = printed.getD "")
      ∧ (done.exit ≠ 0 → done.output = "") := by
  intro done
  refine ⟨fun status body answer => interpret_eq_iff, fun body response => not_rejects_of_read,
    fun endpoint sent => ⟨conclude_some endpoint sent, received_eq_self⟩, exit_eq_zero_iff, ?_,
    output_of_exit_ne_zero⟩
  intro response document answers quiet
  obtain ⟨errors, result⟩ := result_of_answers answers
  obtain ⟨thrown, printed⟩ := holdsText_of_answers answers
  refine ⟨response.result, printed, ?_⟩
  simp only [done]
  rw [result, output_outcomeResult, if_pos (thrown.unique quiet)]

/-- The document of a response with a result and an exception. -/
def exceptionDocument (exception : Json) : Json :=
  .object [("exceptionText", exception), ("result", .string "é")]

theorem answers_exceptionDocument (exception : Json) (response : Response)
    (plain : exception.isPlain)
    (decoded : Response.decode .streamed nestingLimit (exceptionDocument exception)
      = .ok response) :
    Answers .plain (singleFile "") soloOptions
      (fun _ => some ⟨200, Json.compact (exceptionDocument exception)⟩) response
      (exceptionDocument exception) := by
  have built : soloOptions.request (singleFile "") = .ok ⟨"", "", "T", "main"⟩ :=
    request_eq_ok_iff.mpr ⟨FileSystem.read_eq_ok_iff.mp (read_singleFile ""), rfl, rfl, rfl⟩
  have written : Json.read (Json.compact (exceptionDocument exception))
      = .ok (exceptionDocument exception) :=
    Json.read_compact (by simp [exceptionDocument, isPlain, isPlainEntries, plain])
  have read : Response.read (Json.compact (exceptionDocument exception)) = .ok response := by
    rw [Response.read, decodeText, written]
    exact decoded
  have received : Reply.received ⟨200, Json.compact (exceptionDocument exception)⟩
      = ⟨200, Json.compact (exceptionDocument exception)⟩ :=
    received_eq_self ⟨by simp, by simp⟩ (by simp [Json.compact, exceptionDocument, compactChars])
  refine ⟨_, _, _, built, endpoint_soloOptions, rfl, ?_, ?_⟩
  · rw [received]
    exact .response ⟨by simp, by simp⟩ (not_rejects_of_read read) read
  · rw [received]
    exact written

/-- A response with a result and an exception that is `null`, and one with a result and an exception
that is empty. -/
theorem exec_sorts_replies_exceptions :
    let done (exception : Json) := ((execUnder .plain (singleFile "") soloOptions).perform
      (singleFile "") fun _ => some ⟨200, Json.compact (exceptionDocument exception)⟩).result
    ((done .null).exit = 0 ∧ (done .null).output = "é")
      ∧ (done (.string "")).exit ≠ 0 ∧ (done (.string "")).output = "" := by
  intro done
  have passed := answers_exceptionDocument .null ⟨0, none, some "é"⟩ rfl rfl
  have failed := answers_exceptionDocument (.string "") ⟨0, some "", some "é"⟩ rfl rfl
  obtain ⟨-, -, -, success, output, -⟩ := exec_sorts_replies .plain (singleFile "") soloOptions
    fun _ => some ⟨200, Json.compact (exceptionDocument .null)⟩
  obtain ⟨-, -, -, failure, -, silent⟩ := exec_sorts_replies .plain (singleFile "") soloOptions
    fun _ => some ⟨200, Json.compact (exceptionDocument (.string ""))⟩
  have fails : (done (.string "")).exit ≠ 0 := by
    intro succeeded
    obtain ⟨response, document, answers, quiet⟩ := failure.mp succeeded
    rw [answers.document_unique failed] at quiet
    cases quiet.unique (holdsText_of_answers failed).1
  have quiet := (holdsText_of_answers passed).1
  obtain ⟨printed, held, same⟩ := output _ _ passed quiet
  refine ⟨⟨success.mpr ⟨_, _, passed, quiet⟩, ?_⟩, fails, silent fails⟩
  simp only [done]
  rw [same, held.unique (holdsText_of_answers passed).2]
  rfl

end NeutralSchema.Command
