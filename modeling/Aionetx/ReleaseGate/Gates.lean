import Aionetx.ReleaseGate.Pagination

/-!
# The release gates

`check_release_dependency_gate.py` and `check_release_codeql_gate.py`, up to their exit status: what they print is left out.

* `DependencyGate.main`, `CodeqlGate.main` : the scripts, with the fuel of their page loops;
* `DependencyGate.main_eq_zero`, `CodeqlGate.main_eq_zero` : what is known when they pass;
* `Exhaustive` : on a chain of pages the headers are read right, all items are fetched, and no gate passes on one that blocks;
* `exhaustive_iff` : exactly if no URI of a next page has a comma.
-/

namespace Aionetx

/-! ## The dependency gate -/

namespace DependencyGate

def fetchPaginatedList (urlopen : Urlopen) (fuel : Nat) (url token : PyStr) (responseName : String) :
    Option (Except GateError (List Dict)) :=
  fetchPages urlopen (githubApiHeaders "aionetx-release-dependency-gate" token) responseName fuel (some url) []

/-- The URL of `_iter_open_blocking_alerts`. -/
def alertsUrl (repository : PyStr) : PyStr :=
  "https://api.github.com/repos/".toList ++ repository ++ "/dependabot/alerts".toList ++
    "?state=open,dismissed,auto_dismissed&severity=high,critical&per_page=100".toList

def iterOpenBlockingAlerts (urlopen : Urlopen) (fuel : Nat) (repository token : PyStr) : Option (Except GateError (List Dict)) :=
  fetchPaginatedList urlopen fuel (alertsUrl repository) token "Dependabot alerts"

def alertState (alert : Dict) : PyStr :=
  match Dict.getStr alert "state" with
  | some state => if strip state = [] then "<unknown>".toList else state
  | none => "<unknown>".toList

/-- `reason in {"not_used", "inaccurate"}`: a list or a dictionary has no hash. -/
def isAcceptedReason : Option Json → Except GateError Bool
  | some (.str reason) => .ok (reason = "not_used".toList || reason = "inaccurate".toList)
  | some (.arr _) => .error (.typeError "unhashable type: 'list'".toList)
  | some (.obj _) => .error (.typeError "unhashable type: 'dict'".toList)
  | _ => .ok false

def dismissalHasNonExploitabilityRationale (alert : Dict) : Except GateError Bool :=
  match isAcceptedReason (Dict.get alert "dismissed_reason") with
  | .error e => .error e
  | .ok false => .ok false
  | .ok true =>
    match Dict.getStr alert "dismissed_comment" with
    | some comment => .ok (strip comment ≠ [])
    | none => .ok false

def isBlockingAlert (alert : Dict) : Except GateError Bool :=
  let state := alertState alert
  if state = "open".toList then .ok true
  else if state = "dismissed".toList ∨ state = "auto_dismissed".toList then
    (dismissalHasNonExploitabilityRationale alert).map (!·)
  else .ok true

/-- `[alert for alert in inspected_alerts if _is_blocking_alert(alert)]`. -/
def blockingAlerts : List Dict → Except GateError (List Dict)
  | [] => .ok []
  | alert :: alerts =>
    match isBlockingAlert alert with
    | .error e => .error e
    | .ok blocking => (blockingAlerts alerts).map fun rest => if blocking then alert :: rest else rest

/-- The exceptions that `main` catches. -/
def caught : GateError → Bool
  | .runtimeError _ | .urlError _ | .jsonDecodeError _ => true
  | _ => false

structure Environment where
  repository : PyStr
  releaseRef : PyStr
  token : PyStr

/-- The first statements of `main`. -/
def environment (environ : String → Option PyStr) : Except GateError Environment := do
  let repository ← requireEnv environ "GITHUB_REPOSITORY"
  let releaseRef ← requireEnv environ "GITHUB_REF"
  let token ← requireEnv environ "GITHUB_TOKEN"
  return ⟨repository, releaseRef, token⟩

/-- The `try` block of `main`. -/
def inspectedAlerts (urlopen : Urlopen) (environ : String → Option PyStr) (fuel : Nat) : Option (Except GateError (List Dict)) :=
  match environment environ with
  | .error e => some (.error e)
  | .ok env => iterOpenBlockingAlerts urlopen fuel env.repository env.token

/-- `main`: the exit status, or the exception that it does not catch. -/
def main (urlopen : Urlopen) (environ : String → Option PyStr) (fuel : Nat) : Option (Except GateError Nat) :=
  (inspectedAlerts urlopen environ fuel).map fun
    | .error e => if caught e then .ok 1 else .error e
    | .ok alerts => (blockingAlerts alerts).map fun blocking => if blocking.isEmpty then 0 else 1

/-- The gate blocks on everything that it cannot tell to be harmless. -/
theorem not_blocking_of_blockingAlerts_nil {alerts : List Dict} (h : blockingAlerts alerts = .ok []) :
    ∀ alert ∈ alerts, isBlockingAlert alert = .ok false := by
  induction alerts with
  | nil => exact nofun
  | cons alert alerts ih =>
    rw [blockingAlerts] at h
    cases hblock : isBlockingAlert alert with
    | error e => rw [hblock] at h; cases h
    | ok blocking =>
      rw [hblock] at h
      cases hrest : blockingAlerts alerts with
      | error e => rw [hrest] at h; cases h
      | ok rest =>
        rw [hrest] at h
        cases blocking with
        | true => cases h
        | false =>
          have hnil : rest = [] := Except.ok.inj h
          intro a ha
          rcases List.mem_cons.mp ha with rfl | ha
          · exact hblock
          · exact ih (hnil ▸ hrest) a ha

/-- The gate passes only on a list of alerts that it fetched and that do not block. -/
theorem main_eq_zero {urlopen : Urlopen} {environ : String → Option PyStr} {fuel : Nat}
    (h : main urlopen environ fuel = some (.ok 0)) :
    ∃ env alerts, environment environ = .ok env ∧
      iterOpenBlockingAlerts urlopen fuel env.repository env.token = some (.ok alerts) ∧
        ∀ alert ∈ alerts, isBlockingAlert alert = .ok false := by
  obtain ⟨result, hresult, hexit⟩ := Option.map_eq_some_iff.mp h
  unfold inspectedAlerts at hresult
  cases henv : environment environ with
  | error e =>
    rw [henv] at hresult
    obtain rfl := Option.some.inj hresult
    simp only at hexit
    split at hexit
    · cases hexit
    · cases hexit
  | ok env =>
    rw [henv] at hresult
    cases result with
    | error e =>
      simp only at hexit
      split at hexit
      · cases hexit
      · cases hexit
    | ok alerts =>
      refine ⟨env, alerts, rfl, hresult, not_blocking_of_blockingAlerts_nil ?_⟩
      cases hblock : blockingAlerts alerts with
      | error e => simp only [hblock] at hexit; cases hexit
      | ok blocking =>
        cases blocking with
        | nil => rfl
        | cons alert rest => simp only [hblock] at hexit; cases hexit

end DependencyGate

/-! ## The CodeQL gate -/

namespace CodeqlGate

def fetchPaginatedList (urlopen : Urlopen) (fuel : Nat) (url token : PyStr) (responseName : String) :
    Option (Except GateError (List Dict)) :=
  fetchPages urlopen (githubApiHeaders "aionetx-release-codeql-gate" token) responseName fuel (some url) []

def fetchJsonObject (urlopen : Urlopen) (url token : PyStr) (responseName : String) : Except GateError Dict :=
  match urlopen ⟨url, githubApiHeaders "aionetx-release-codeql-gate" token⟩ with
  | .error e => .error e
  | .ok response =>
    match response.payload with
    | .obj payload => .ok payload
    | _ => .error (.runtimeError ("Unexpected " ++ responseName ++ " response shape.").toList)

def quoteByte (b : UInt8) : PyStr :=
  let digit (n : Nat) : Char := "0123456789ABCDEF".toList.getD n '0'
  ['%', digit (b.toNat / 16), digit (b.toNat % 16)]

/-- The characters that `urllib.parse.quote` never quotes. -/
def alwaysSafe (c : Char) : Bool :=
  ('a' ≤ c && c ≤ 'z') || ('A' ≤ c && c ≤ 'Z') || ('0' ≤ c && c ≤ '9') || c = '_' || c = '.' || c = '-' || c = '~'

/-- `urllib.parse.quote`. -/
def quote (s safe : PyStr) : PyStr :=
  s.flatMap fun c => if alwaysSafe c || c ∈ safe then [c] else (String.utf8EncodeChar c).flatMap quoteByte

def analysesUrl (repository : PyStr) : PyStr :=
  "https://api.github.com/repos/".toList ++ repository ++ "/code-scanning/analyses?per_page=100".toList

def iterCodeqlAnalyses (urlopen : Urlopen) (fuel : Nat) (repository token : PyStr) : Option (Except GateError (List Dict)) :=
  fetchPaginatedList urlopen fuel (analysesUrl repository) token "code scanning analyses"

def alertsUrl (repository ref : PyStr) : PyStr :=
  "https://api.github.com/repos/".toList ++ repository ++ "/code-scanning/alerts".toList ++
    "?state=open&ref=".toList ++ quote ref [] ++ "&per_page=100".toList

def iterOpenAlerts (urlopen : Urlopen) (fuel : Nat) (repository ref token : PyStr) : Option (Except GateError (List Dict)) :=
  fetchPaginatedList urlopen fuel (alertsUrl repository ref) token "code scanning alerts"

def toolName (analysis : Dict) : PyStr := ((Dict.getDict analysis "tool").bind (Dict.getStr · "name")).getD []

def analysisRef (analysis : Dict) : PyStr := ((Dict.getStr analysis "ref").map strip).getD []

def isBranchRef (ref : PyStr) : Bool := "refs/heads/".toList.isPrefixOf ref

def gitRefApiPath (ref : PyStr) : Except GateError PyStr :=
  if "refs/".toList.isPrefixOf ref then
    let refPath := strip (ref.drop 5)
    if refPath = [] then .error (.runtimeError "CodeQL analysis returned an empty analyzed ref.".toList)
    else .ok (quote refPath ['/'])
  else .error (.runtimeError ("CodeQL analysis returned an unsupported ref: '".toList ++ ref ++ "'".toList))

def currentRefSha (urlopen : Urlopen) (repository ref token : PyStr) : Except GateError PyStr := do
  let refPath ← gitRefApiPath ref
  let url := "https://api.github.com/repos/".toList ++ repository ++ "/git/ref/".toList ++ refPath
  let payload ← fetchJsonObject urlopen url token "git ref"
  match Dict.getDict payload "object" with
  | none => .error (.runtimeError ("Unexpected git ref response shape for ".toList ++ ref ++ ".".toList))
  | some objectValue =>
    match (Dict.getStr objectValue "sha").map strip with
    | none | some [] => .error (.runtimeError ("Git ref response for ".toList ++ ref ++ " did not include an object SHA.".toList))
    | some (c :: sha) => .ok (c :: sha)

/-- `str.casefold` and `str.lower`, as far as a comparison with an ASCII word can tell. -/
def lower (s : PyStr) : PyStr := s.map Char.toLower

def isSuccessfulCodeqlAnalysisForCommit (releaseSha : PyStr) (analysis : Dict) : Bool :=
  Dict.getStr analysis "commit_sha" = some releaseSha && lower (toolName analysis) = "codeql".toList &&
    analysisRef analysis ≠ [] && isBranchRef (analysisRef analysis) &&
      ((Dict.getStr analysis "error").map strip).getD [] = []

def findReleaseCodeqlAnalysis (analyses : List Dict) (releaseSha : PyStr) : Option Dict :=
  analyses.find? (isSuccessfulCodeqlAnalysisForCommit releaseSha)

def severityRank (severity : PyStr) : Int :=
  if severity = "critical".toList then 3
  else if severity = "high".toList then 2
  else if severity = "medium".toList then 1
  else if severity = "low".toList then 0
  else -1

/-- The body of the loop of `main` over the open alerts. -/
def isBlockingAlert (alert : Dict) : Bool :=
  let severity := (((Dict.getDict alert "rule").bind (Dict.getStr · "security_severity_level")).map lower).getD []
  severityRank "high".toList ≤ severityRank severity

structure Environment where
  repository : PyStr
  releaseRef : PyStr
  releaseSha : PyStr
  token : PyStr

/-- The first statements of `main`. -/
def environment (environ : String → Option PyStr) : Except GateError Environment := do
  let repository ← requireEnv environ "GITHUB_REPOSITORY"
  let releaseRef ← requireEnv environ "GITHUB_REF"
  let releaseSha ← requireEnv environ "GITHUB_SHA"
  let token ← requireEnv environ "GITHUB_TOKEN"
  return ⟨repository, releaseRef, releaseSha, token⟩

/-- The statements of `main` up to `analyzed_ref`: the reference that was analysed, if there is one. -/
def analyzedRef (urlopen : Urlopen) (env : Environment) (fuel : Nat) : Option (Except GateError (Option PyStr)) :=
  (iterCodeqlAnalyses urlopen fuel env.repository env.token).map fun analyses =>
    analyses.map fun analyses => (findReleaseCodeqlAnalysis analyses env.releaseSha).map analysisRef

/-- The `try` block of `main` and the check behind it: the exit status, if it ends here. -/
def checkCurrentRef (urlopen : Urlopen) (env : Environment) (ref : PyStr) : Except GateError (Option Nat) :=
  match currentRefSha urlopen env.repository ref env.token with
  | .error (.runtimeError _) => .ok (some 1)
  | .error e => .error e
  | .ok sha => .ok (if sha ≠ env.releaseSha then some 1 else none)

/-- The last statements of `main`. -/
def checkOpenAlerts (urlopen : Urlopen) (env : Environment) (ref : PyStr) (fuel : Nat) : Option (Except GateError Nat) :=
  (iterOpenAlerts urlopen fuel env.repository ref env.token).map fun alerts =>
    alerts.map fun alerts => if (alerts.filter isBlockingAlert).isEmpty then 0 else 1

/-- `main`: the exit status, or the exception that it does not catch. -/
def main (urlopen : Urlopen) (environ : String → Option PyStr) (fuel : Nat) : Option (Except GateError Nat) :=
  match environment environ with
  | .error e => some (.error e)
  | .ok env =>
    match analyzedRef urlopen env fuel with
    | none => none
    | some (.error e) => some (.error e)
    | some (.ok none) => some (.ok 1)
    | some (.ok (some ref)) =>
      match checkCurrentRef urlopen env ref with
      | .error e => some (.error e)
      | .ok (some status) => some (.ok status)
      | .ok none => checkOpenAlerts urlopen env ref fuel

/-- The check of the current reference ends the script only with a failure. -/
theorem checkCurrentRef_ne_zero {urlopen : Urlopen} {env : Environment} {ref : PyStr} :
    checkCurrentRef urlopen env ref ≠ .ok (some 0) := by
  unfold checkCurrentRef
  intro h
  split at h
  · cases h
  · cases h
  · split at h
    · cases h
    · cases h

/-- The gate passes only on an analysis that it found, and on a list of alerts that it fetched and that do not block. -/
theorem main_eq_zero {urlopen : Urlopen} {environ : String → Option PyStr} {fuel : Nat}
    (h : main urlopen environ fuel = some (.ok 0)) :
    ∃ env ref alerts, environment environ = .ok env ∧ analyzedRef urlopen env fuel = some (.ok (some ref)) ∧
      iterOpenAlerts urlopen fuel env.repository ref env.token = some (.ok alerts) ∧
        ∀ alert ∈ alerts, isBlockingAlert alert = false := by
  unfold main at h
  split at h
  · cases h
  · rename_i env henv
    split at h
    · cases h
    · cases h
    · cases h
    · rename_i ref href
      split at h
      · cases h
      · rename_i status hcheck
        obtain rfl : status = 0 := Except.ok.inj (Option.some.inj h)
        exact absurd hcheck checkCurrentRef_ne_zero
      · obtain ⟨result, hresult, hexit⟩ := Option.map_eq_some_iff.mp h
        cases result with
        | error e => cases hexit
        | ok alerts =>
          refine ⟨env, ref, alerts, henv, href, hresult, fun alert ha => ?_⟩
          have hnil : alerts.filter isBlockingAlert = [] := by
            by_contra hne
            rw [Except.map, if_neg (by rwa [List.isEmpty_iff])] at hexit
            cases hexit
          have hnot := List.filter_eq_nil_iff.mp hnil alert ha
          rwa [Bool.not_eq_true] at hnot

end CodeqlGate

/-! ## Exhaustive pagination -/

/-- On a chain of pages, the headers are read right, all dictionaries are fetched in their order, and neither gate passes
without having seen them. -/
structure Exhaustive (urlopen : Urlopen) (headers : List (PyStr × PyStr)) (url : PyStr) (pages : List Page) : Prop where
  parsed : ∀ page ∈ pages, parseNextLink page.response.link = page.next
  fetched : ∀ responseName fuel, pages.length < fuel →
    fetchPages urlopen headers responseName fuel (some url) [] = some (.ok (pages.flatMap Page.items))
  dependencyAlerts : ∀ environ fuel env, DependencyGate.environment environ = .ok env →
    githubApiHeaders "aionetx-release-dependency-gate" env.token = headers → DependencyGate.alertsUrl env.repository = url →
      DependencyGate.main urlopen environ fuel = some (.ok 0) →
        ∀ page ∈ pages, ∀ alert ∈ page.items, DependencyGate.isBlockingAlert alert = .ok false
  codeqlAnalyses : ∀ environ fuel env, CodeqlGate.environment environ = .ok env →
    githubApiHeaders "aionetx-release-codeql-gate" env.token = headers → CodeqlGate.analysesUrl env.repository = url →
      CodeqlGate.main urlopen environ fuel = some (.ok 0) →
        ∃ analysis, CodeqlGate.findReleaseCodeqlAnalysis (pages.flatMap Page.items) env.releaseSha = some analysis ∧
          CodeqlGate.analyzedRef urlopen env fuel = some (.ok (some (CodeqlGate.analysisRef analysis)))
  codeqlAlerts : ∀ environ fuel env ref, CodeqlGate.environment environ = .ok env →
    githubApiHeaders "aionetx-release-codeql-gate" env.token = headers →
      CodeqlGate.analyzedRef urlopen env fuel = some (.ok (some ref)) → CodeqlGate.alertsUrl env.repository ref = url →
        CodeqlGate.main urlopen environ fuel = some (.ok 0) →
          ∀ page ∈ pages, ∀ alert ∈ page.items, CodeqlGate.isBlockingAlert alert = false

section Chain
variable {urlopen : Urlopen} {headers : List (PyStr × PyStr)} {responseName : String} {url : PyStr} {pages : List Page}

/-- What is fetched with comma-free URIs is everything, whatever the fuel. -/
theorem Chain.items_of_fetchPages (h : Chain urlopen headers url pages) (hurl : url ≠ []) (hplain : ∀ page ∈ pages, page.Plain)
    {fuel : Nat} {items : List Dict} (hfetch : fetchPages urlopen headers responseName fuel (some url) [] = some (.ok items)) :
    items = pages.flatMap Page.items := by
  rw [h.fetchPages_of_plain hurl hplain, List.nil_append] at hfetch
  split at hfetch
  · exact (Except.ok.inj (Option.some.inj hfetch)).symm
  · cases hfetch

theorem Chain.exhaustive_of_plain (h : Chain urlopen headers url pages) (hurl : url ≠ []) (hplain : ∀ page ∈ pages, page.Plain) :
    Exhaustive urlopen headers url pages where
  parsed page hpage := page.parseNextLink_response_iff.mpr (hplain page hpage)
  fetched responseName fuel hfuel := by
    rw [h.fetchPages_of_plain hurl hplain, if_pos hfuel, List.nil_append]
  dependencyAlerts environ fuel env henv hheaders hrepo hmain page hpage alert halert := by
    obtain ⟨env', alerts, henv', hfetch, hblock⟩ := DependencyGate.main_eq_zero hmain
    obtain rfl : env = env' := Except.ok.inj (henv.symm.trans henv')
    subst hheaders hrepo
    refine hblock alert ?_
    rw [h.items_of_fetchPages hurl hplain hfetch]
    exact List.mem_flatMap.mpr ⟨page, hpage, halert⟩
  codeqlAnalyses environ fuel env henv hheaders hrepo hmain := by
    obtain ⟨env', ref, alerts, henv', href, -, -⟩ := CodeqlGate.main_eq_zero hmain
    obtain rfl : env = env' := Except.ok.inj (henv.symm.trans henv')
    subst hheaders hrepo
    obtain ⟨result, hresult, hfound⟩ := Option.map_eq_some_iff.mp href
    cases result with
    | error e => cases hfound
    | ok analyses =>
      obtain ⟨analysis, hanalysis, rfl⟩ := Option.map_eq_some_iff.mp (Except.ok.inj hfound)
      refine ⟨analysis, ?_, href⟩
      rw [← h.items_of_fetchPages hurl hplain hresult]
      exact hanalysis
  codeqlAlerts environ fuel env ref henv hheaders href hrepo hmain page hpage alert halert := by
    obtain ⟨env', ref', alerts, henv', href', hfetch, hblock⟩ := CodeqlGate.main_eq_zero hmain
    obtain rfl : env = env' := Except.ok.inj (henv.symm.trans henv')
    obtain rfl : ref = ref' := Option.some.inj (Except.ok.inj (Option.some.inj (href.symm.trans href')))
    subst hheaders hrepo
    refine hblock alert ?_
    rw [h.items_of_fetchPages hurl hplain hfetch]
    exact List.mem_flatMap.mpr ⟨page, hpage, halert⟩

/-- A header is read right, and a chain of pages is fetched as a whole, exactly if the next pages have URIs without a comma. -/
theorem exhaustive_iff (entries : List LinkEntry) (hurl : url ≠ []) (h : Chain urlopen headers url pages) :
    (parseNextLink (some (linkHeader entries)) = nextLink entries ↔ ∀ uri, nextLink entries = some uri → ',' ∉ uri) ∧
      (Exhaustive urlopen headers url pages ↔ ∀ page ∈ pages, page.Plain) := by
  refine ⟨parseNextLink_eq_nextLink_iff entries, fun hall page hpage => ?_, h.exhaustive_of_plain hurl⟩
  exact page.parseNextLink_response_iff.mp (hall.parsed page hpage)

end Chain

/-! ## Two pages -/

theorem chars_of_all {uri : PyStr} (h : uri.all (fun c => c ≠ '<' ∧ c ≠ '>' ∧ c ≠ '"') = true) :
    ∀ c ∈ uri, c ≠ '<' ∧ c ≠ '>' ∧ c ≠ '"' := fun c hc => of_decide_eq_true (List.all_eq_true.mp h c hc)

def nextEntry (uri : PyStr) (hne : uri ≠ []) (hchars : ∀ c ∈ uri, c ≠ '<' ∧ c ≠ '>' ∧ c ≠ '"') : LinkEntry :=
  ⟨[], uri, relationNext, nofun, hne, hchars, by decide⟩

/-- A page without items that points to the next one. -/
def firstPage (e : LinkEntry) : Page := ⟨[], some [e]⟩

def lastPage : Page := ⟨[.obj [("state".toList, .str "open".toList)]], none⟩

/-- The server of the two pages: the first one under `url`, the last one elsewhere. -/
def twoPages (url : PyStr) (e : LinkEntry) : Urlopen := fun request =>
  if request.fullUrl = url then .ok (firstPage e).response else .ok lastPage.response

theorem chain_twoPages {url : PyStr} {e : LinkEntry} (headers : List (PyStr × PyStr)) (hrel : e.rel = relationNext)
    (huri : e.uri ≠ url) : Chain (twoPages url e) headers url [firstPage e, lastPage] := by
  have hnext : (firstPage e).next = some e.uri := by
    simp [firstPage, Page.next, nextLink, hrel]
  refine Chain.cons ?_ hnext (Chain.last ?_ rfl)
  · exact if_pos rfl
  · exact if_neg huri

theorem exhaustive_of_twoPages :
    let e := nextEntry "b".toList (by decide) (chars_of_all rfl)
    (parseNextLink (some (linkHeader [e])) = nextLink [e] ↔ ∀ uri, nextLink [e] = some uri → ',' ∉ uri) ∧
      (Exhaustive (twoPages "a".toList e) [] "a".toList [firstPage e, lastPage] ↔
        ∀ page ∈ [firstPage e, lastPage], page.Plain) :=
  exhaustive_iff _ (by decide) (chain_twoPages [] rfl (by decide))

/-- The first URL of the dependency gate, as it asks for it. -/
def queryUrl : PyStr := DependencyGate.alertsUrl "o/r".toList

def cursorUrl : PyStr := queryUrl ++ "&after=2".toList

theorem cursorUrl_chars : ∀ c ∈ cursorUrl, c ≠ '<' ∧ c ≠ '>' ∧ c ≠ '"' := chars_of_all (by decide +kernel)

def cursorEntry : LinkEntry := nextEntry cursorUrl (by decide) cursorUrl_chars

def releaseEnviron (name : String) : Option PyStr := if name = "GITHUB_REPOSITORY" then some "o/r".toList else some "v".toList

theorem environment_releaseEnviron :
    DependencyGate.environment releaseEnviron = .ok ⟨"o/r".toList, "v".toList, "v".toList⟩ := by rfl

/-- The commas of the query that the server repeats in the URI of the next page hide that page: the gate passes. -/
theorem main_commaQuery : DependencyGate.main (twoPages queryUrl cursorEntry) releaseEnviron 2 = some (.ok 0) := by
  have hparsed : parseNextLink (firstPage cursorEntry).response.link = none := by
    refine (parseNextLink_linkHeader [cursorEntry]).trans ?_
    rw [List.find?_eq_none.mpr, Option.map_none]
    decide
  have hfetch : DependencyGate.iterOpenBlockingAlerts (twoPages queryUrl cursorEntry) 2 "o/r".toList "v".toList = some (.ok []) := by
    have hopen : twoPages queryUrl cursorEntry ⟨queryUrl, githubApiHeaders "aionetx-release-dependency-gate" "v".toList⟩ =
        .ok (firstPage cursorEntry).response := if_pos rfl
    rw [DependencyGate.iterOpenBlockingAlerts, DependencyGate.fetchPaginatedList]
    refine (Chain.fetchPages_succ (by decide) hopen 1 []).trans ?_
    rw [hparsed]
    rfl
  simp only [DependencyGate.main, DependencyGate.inspectedAlerts, environment_releaseEnviron, hfetch]
  rfl

theorem not_exhaustive_of_commaQuery :
    ¬ ∀ urlopen headers url pages, url ≠ [] → Chain urlopen headers url pages → Exhaustive urlopen headers url pages := by
  intro h
  have hne : cursorEntry.uri ≠ queryUrl := by
    intro hsame
    exact absurd (List.append_right_eq_self.mp hsame) (by decide)
  have hall := h _ _ queryUrl _ (by decide) (chain_twoPages (githubApiHeaders "aionetx-release-dependency-gate" "v".toList) rfl hne)
  have hopen := hall.dependencyAlerts releaseEnviron 2 _ environment_releaseEnviron rfl rfl main_commaQuery lastPage (by simp)
    [("state".toList, .str "open".toList)] (by simp [lastPage, Page.items, Json.dict?])
  exact absurd hopen (by decide)

end Aionetx
