import SignetDrive.Model.RustStd

/-!
# Paginated listings

`fetchAllPages` of `web/src/lib/paginate.ts` and `fetch_paginated` of `cli/src/resolve.rs`, with the
walks `filesUnder` of `web/src/lib/drive.ts` and `files_under` of `cli/src/resolve.rs`. `none` says
that a loop is still going on after its rounds. Rows are their ids.
-/

namespace SignetDrive

variable {ε α : Type}

/-- What an answer has in the place of its array. -/
inductive PageItems (α : Type) where
  | array (items : List α)
  /-- A text, by its characters. -/
  | text (characters : List α)
  | other

/-- What `push(...items)` adds; a text is spread into its characters. -/
def PageItems.spread : PageItems α → Option (List α)
  | .array items | .text items => some items
  | .other => none

/-- What `as_array` finds. The command line passes over anything else. -/
def PageItems.asArray : PageItems α → List α
  | .array items => items
  | _ => []

structure ListingPage (α : Type) where
  items : PageItems α
  nextCursor : Option String

/-- The answers to the requests without a cursor and with one. -/
abbrev PagedListing (ε α : Type) := Option String → Except ε (ListingPage α)

inductive PageError (ε : Type) where
  | request (e : ε)
  | noProgress
  | noItems

/-- What one round of a drain comes to. -/
inductive Round (ε α : Type) where
  | fails (e : ε)
  | last (items : List α)
  | more (items : List α) (cursor : String)

/-- The loop of both drains. -/
def drain (round : Option String → Round ε α) : ℕ → List α → Option String → Option (Except ε (List α))
  | 0, _, _ => none
  | rounds + 1, all, cursor =>
    match round cursor with
    | .fails e => some (.error e)
    | .last items => some (.ok (all ++ items))
    | .more items next => drain round rounds (all ++ items) (some next)

/-- The empty cursor ends the loop as a missing one does. -/
def allPagesRound (fetchPage : PagedListing ε α) (cursor : Option String) : Round (PageError ε) α :=
  match fetchPage cursor with
  | .error e => .fails (.request e)
  | .ok page =>
    match page.items.spread, page.nextCursor with
    | none, _ => .fails .noItems
    | some items, none => .last items
    | some items, some next =>
      if some next = cursor then .fails .noProgress
      else if next = "" then .last items
      else .more items next

def fetchAllPages (fetchPage : PagedListing ε α) (rounds : ℕ) : Option (Except (PageError ε) (List α)) :=
  drain (allPagesRound fetchPage) rounds [] none

/-- The cursor is pasted into the query as it is. -/
def pagePath (base : String) : Option String → String
  | some c => base ++ (if '?' ∈ base.toList then "&" else "?") ++ "cursor=" ++ c
  | none => base

def paginatedRound (get : String → Except ε (ListingPage α)) (base : String)
    (cursor : Option String) : Round ε α :=
  match get (pagePath base cursor) with
  | .error e => .fails e
  | .ok page =>
    match page.nextCursor with
    | some c => .more page.items.asArray c
    | none => .last page.items.asArray

def fetchPaginated (get : String → Except ε (ListingPage α)) (base : String) (rounds : ℕ) :
    Option (Except ε (List α)) :=
  drain (paginatedRound get base) rounds [] none

/-- The alphabet of base64url tokens. -/
def UrlSafe (text : List Char) : Prop := ∀ c ∈ text, c.isAlphanum ∨ c = '-' ∨ c = '_'

/-- The listings of a server, and how it reads the names and values of a query. -/
structure ListingServer (ε F D : Type) where
  files : D → PagedListing ε F
  folders : D → PagedListing ε D
  idText : D → String
  idText_urlSafe : ∀ id, UrlSafe (idText id).toList
  decode : List Char → String
  decode_urlSafe : ∀ text, UrlSafe text → decode text = String.ofList text

/-- The value of a part of a query, if it is the cursor's. -/
def cursorPart (decode : List Char → String) (part : List Char) : Option String :=
  if decode (part.takeWhile (· ≠ '=')) = "cursor" then some (decode (part.dropWhile (· ≠ '=')).tail) else none

def readCursor (decode : List Char → String) (path : String) : Option String :=
  let query := ((path.toList.takeWhile (· ≠ '#')).dropWhile (· ≠ '?')).tail
  (query.splitOn '&').findSome? (cursorPart decode)

section

variable {F D δ : Type}

/-- The loop of both walks. The end of the list is the top of the stack. -/
def walkUnder (fetchFiles : D → Option (Except δ (List F))) (fetchFolders : D → Option (Except δ (List D))) :
    ℕ → List F → List D → Option (Except δ (List F))
  | 0, _, _ => none
  | rounds + 1, fileIds, queue =>
    match queue.getLast? with
    | none => some (.ok fileIds)
    | some current =>
      match fetchFiles current with
      | none => none
      | some (.error e) => some (.error e)
      | some (.ok files) =>
        match fetchFolders current with
        | none => none
        | some (.error e) => some (.error e)
        | some (.ok subs) =>
          walkUnder fetchFiles fetchFolders rounds (fileIds ++ files) (queue.dropLast ++ subs)

variable (s : ListingServer ε F D) (rounds : ℕ) (folder : D)

/-- `listFiles` and `listFolders` of `web/src/lib/api.ts` encode the cursor, which so reaches the server. -/
def filesUnder : Option (Except (PageError ε) (List F)) :=
  walkUnder (fun d => fetchAllPages (s.files d) rounds) (fun d => fetchAllPages (s.folders d) rounds)
    rounds [] [folder]

def fetchFiles : Option (Except ε (List F)) :=
  fetchPaginated (fun path => s.files folder (readCursor s.decode path))
    ("/v1/folders/" ++ s.idText folder ++ "/files") rounds

def fetchFolders : Option (Except ε (List D)) :=
  fetchPaginated (fun path => s.folders folder (readCursor s.decode path))
    ("/v1/folders?parent_folder_id=" ++ s.idText folder) rounds

def cliFilesUnder : Option (Except ε (List F)) :=
  walkUnder (fetchFiles s rounds) (fetchFolders s rounds) rounds [] [folder]

end

end SignetDrive
