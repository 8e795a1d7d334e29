import Aionetx.ReleaseGate.LinkHeader

/-!
# The pages of the release gates

Both gates fetch a list page by page and follow the `Link` header from one page to the next.

* `Json`, `Request`, `Response` : what is requested and read, `urlopen` is a parameter;
* `fetchPages` : the loop of `_fetch_paginated_list`, fuelled;
* `Page`, `Chain` : well-formed pages, each the next one of the page before;
* `Chain.fetchPages_of_plain` : with comma-free URIs, the loop reads all of them;
* `DependencyGate`, `CodeqlGate` : the two scripts, up to their exit status.
-/

namespace Aionetx

/-! ## Requests and responses -/

/-- What `json.loads` returns. A number is kept as its text. -/
inductive Json where
  | null
  | bool (value : Bool)
  | number (text : PyStr)
  | str (value : PyStr)
  | arr (items : List Json)
  | obj (fields : List (PyStr × Json))

/-- A Python dictionary with string keys. -/
abbrev Dict := List (PyStr × Json)

/-- `isinstance(item, dict)`, with the dictionary. -/
def Json.dict? : Json → Option Dict
  | .obj fields => some fields
  | _ => none

/-- `isinstance(value, str)`, with the string. -/
def Json.str? : Json → Option PyStr
  | .str value => some value
  | _ => none

def Dict.get (d : Dict) (key : String) : Option Json := d.lookup key.toList

/-- `dict.get`, followed by `isinstance(value, str)`. -/
def Dict.getStr (d : Dict) (key : String) : Option PyStr := (d.get key).bind Json.str?

/-- `dict.get`, followed by `isinstance(value, dict)`. -/
def Dict.getDict (d : Dict) (key : String) : Option Dict := (d.get key).bind Json.dict?

inductive GateError where
  | runtimeError (message : PyStr)
  | urlError (message : PyStr)
  | jsonDecodeError (message : PyStr)
  | typeError (message : PyStr)
  | other (message : PyStr)
deriving DecidableEq

/-- `urllib.request.Request`. -/
structure Request where
  fullUrl : PyStr
  headers : List (PyStr × PyStr)
deriving DecidableEq

/-- A response: the decoded payload, and the `Link` header. -/
structure Response where
  payload : Json
  link : Option PyStr

/-- `urllib.request.urlopen`, followed by `json.loads`. -/
abbrev Urlopen := Request → Except GateError Response

def requireEnv (environ : String → Option PyStr) (name : String) : Except GateError PyStr :=
  let value := strip ((environ name).getD [])
  if value = [] then .error (.runtimeError ("Required environment variable is missing: " ++ name).toList) else .ok value

def githubApiHeaders (userAgent : String) (token : PyStr) : List (PyStr × PyStr) :=
  [("Accept".toList, "application/vnd.github+json".toList), ("Authorization".toList, "Bearer ".toList ++ token),
    ("X-GitHub-Api-Version".toList, "2022-11-28".toList), ("User-Agent".toList, userAgent.toList)]

/-! ## The loop -/

section Loop
variable (urlopen : Urlopen) (headers : List (PyStr × PyStr)) (responseName : String)

/-- The loop of `_fetch_paginated_list`: `none` when the fuel is used up. -/
def fetchPages : Nat → Option PyStr → List Dict → Option (Except GateError (List Dict))
  | 0, _, _ => none
  | fuel + 1, nextUrl, items =>
    match nextUrl with
    | none => some (.ok items)
    | some [] => some (.ok items)
    | some (c :: url) =>
      match urlopen ⟨c :: url, headers⟩ with
      | .error e => some (.error e)
      | .ok response =>
        match response.payload with
        | .arr payload => fetchPages fuel (parseNextLink response.link) (items ++ payload.filterMap Json.dict?)
        | _ => some (.error (.runtimeError ("Unexpected " ++ responseName ++ " response shape.").toList))

end Loop

/-! ## Chains of pages -/

/-- A page: its items, and the entries of its `Link` header if it has one. -/
structure Page where
  payload : List Json
  entries : Option (List LinkEntry)

namespace Page

def response (page : Page) : Response := ⟨.arr page.payload, page.entries.map linkHeader⟩

def next (page : Page) : Option PyStr := page.entries.bind nextLink

def items (page : Page) : List Dict := page.payload.filterMap Json.dict?

/-- The URI of the next page has no comma. -/
def Plain (page : Page) : Prop := ∀ uri, page.next = some uri → ',' ∉ uri

/-- The next page is found exactly if its URI has no comma. -/
theorem parseNextLink_response_iff (page : Page) : parseNextLink page.response.link = page.next ↔ page.Plain := by
  obtain ⟨payload, entries⟩ := page
  cases entries with
  | none => exact ⟨fun _ _ h => (Option.some_ne_none _ h.symm).elim, fun _ => rfl⟩
  | some entries => exact parseNextLink_eq_nextLink_iff entries

theorem next_ne_nil {page : Page} {uri : PyStr} (h : page.next = some uri) : uri ≠ [] := by
  obtain ⟨entries, -, hnext⟩ := Option.bind_eq_some_iff.mp h
  obtain ⟨e, -, rfl⟩ := Option.map_eq_some_iff.mp hnext
  exact e.uri_ne_nil

end Page

/-- The pages that are reached from a URL by following the next pages, up to a page without one. -/
inductive Chain (urlopen : Urlopen) (headers : List (PyStr × PyStr)) : PyStr → List Page → Prop
  | last {url : PyStr} {page : Page} (hopen : urlopen ⟨url, headers⟩ = .ok page.response) (hnext : page.next = none) :
      Chain urlopen headers url [page]
  | cons {url nextUrl : PyStr} {page : Page} {pages : List Page} (hopen : urlopen ⟨url, headers⟩ = .ok page.response)
      (hnext : page.next = some nextUrl) (hrest : Chain urlopen headers nextUrl pages) :
      Chain urlopen headers url (page :: pages)

namespace Chain
variable {urlopen : Urlopen} {headers : List (PyStr × PyStr)} {responseName : String} {url : PyStr} {pages : List Page}

theorem fetchPages_succ {page : Page} (hurl : url ≠ []) (hopen : urlopen ⟨url, headers⟩ = .ok page.response) (fuel : Nat)
    (items : List Dict) :
    fetchPages urlopen headers responseName (fuel + 1) (some url) items =
      fetchPages urlopen headers responseName fuel (parseNextLink page.response.link) (items ++ page.items) := by
  cases url with
  | nil => exact absurd rfl hurl
  | cons c url => simp only [fetchPages, hopen, Page.response, Page.items]

/-- With comma-free URIs, the loop runs through the whole chain: it has not ended before, and ends after. -/
theorem fetchPages_of_plain (h : Chain urlopen headers url pages) (hurl : url ≠ []) (hplain : ∀ page ∈ pages, page.Plain)
    (fuel : Nat) (items : List Dict) :
    fetchPages urlopen headers responseName fuel (some url) items =
      if pages.length < fuel then some (.ok (items ++ pages.flatMap Page.items)) else none := by
  induction h generalizing fuel items with
  | last hopen hnext =>
    rename_i url page
    cases fuel with
    | zero => rfl
    | succ fuel =>
      have hparsed := page.parseNextLink_response_iff.mpr (hplain page (by simp))
      rw [fetchPages_succ hurl hopen, hparsed, hnext]
      cases fuel with
      | zero => simp [fetchPages]
      | succ fuel => simp [fetchPages]
  | cons hopen hnext hrest ih =>
    rename_i url nextUrl page pages
    cases fuel with
    | zero => rfl
    | succ fuel =>
      have hparsed := page.parseNextLink_response_iff.mpr (hplain page (by simp))
      rw [fetchPages_succ hurl hopen, hparsed, hnext,
        ih (Page.next_ne_nil hnext) (fun p hp => hplain p (List.mem_cons_of_mem _ hp))]
      simp only [List.flatMap_cons, List.append_assoc, List.length_cons, Nat.add_lt_add_iff_right]

end Chain

end Aionetx
