import TlsProxy.Http.StaticContainment
import TlsProxy.Http.HeaderViews
import TlsProxy.Lib.Pages
import Mathlib.Data.List.Sort
import Mathlib.Data.List.Lex

/-! `scan_directory` of `static_files.rs` and the links between the pages of a
listing. -/
namespace TlsProxy.Http

open Config Text

abbrev SystemTime := Int

inductive EntryKind
  | symlink
  | directory
  | other
  /-- The type could not be read. -/
  | unknown
deriving DecidableEq

/-- An entry of a directory, under the name that is displayed. No name of a file system holds a NUL. -/
structure DirEntry where
  name : Text
  kind : EntryKind
  nulFree : '\x00' ∉ name

structure FileStat where
  length : Nat
  modified : Option SystemTime
  isDirectory : Bool

structure Disk where
  readDir : Text → Except IoErrorKind (List DirEntry)
  /-- The metadata of what a path leads to. -/
  metadata : Text → Option FileStat
  readLink : Text → Option Text

structure ListedName where
  name : Text
  isDir : Bool
  isSymlink : Bool
deriving DecidableEq

structure ListedEntry where
  name : Text
  isDir : Bool
  size : Nat
  modified : Option SystemTime
  linkTarget : Option Text
deriving DecidableEq

structure Listing where
  directories : Nat
  files : Nat
  startOrdinal : Nat
  entries : List ListedEntry
  nextAfter : Option Text
deriving DecidableEq

def byteKey (name : Text) : List Nat := (Utf8.encode name).map UInt8.toNat

section Scan

variable (disk : Disk) (path : Text)

def listedName (entry : DirEntry) : ListedName :=
  match entry.kind with
  | .symlink => ⟨entry.name, ((disk.metadata (Paths.join path entry.name)).map FileStat.isDirectory).getD false, true⟩
  | .directory => ⟨entry.name, true, false⟩
  | .other => ⟨entry.name, false, false⟩
  | .unknown => ⟨entry.name, false, false⟩

def sortedNames (entries : List DirEntry) : List ListedName :=
  (entries.map (listedName disk path)).insertionSort fun a b => byteKey a.name ≤ byteKey b.name

def listedEntry (listed : ListedName) : ListedEntry :=
  let stat := disk.metadata (Paths.join path listed.name)
  { name := listed.name
    isDir := listed.isDir
    size := (stat.map FileStat.length).getD 0
    modified := stat.bind FileStat.modified
    linkTarget := if listed.isSymlink then disk.readLink (Paths.join path listed.name) else none }

def startOf (names : List ListedName) : Option Text → Nat
  | some cursor => (names.takeWhile fun listed => decide (byteKey listed.name ≤ byteKey cursor)).length
  | none => 0

def scanDirectory (after : Option Text) (pageSize : Nat) : Except IoErrorKind Listing :=
  (disk.readDir path).map fun found =>
    let names := sortedNames disk path found
    let start := startOf names after
    let pageEnd := min (start + pageSize) names.length
    { directories := names.countP ListedName.isDir
      files := names.length - names.countP ListedName.isDir
      startOrdinal := start + 1
      entries := ((names.drop start).take (pageEnd - start)).map (listedEntry disk path)
      nextAfter := if pageEnd < names.length then (names[pageEnd - 1]?).map ListedName.name else none }

end Scan

def isUnreserved (byte : UInt8) : Bool :=
  (48 ≤ byte && byte ≤ 57) || (65 ≤ byte && byte ≤ 90) || (97 ≤ byte && byte ≤ 122) ||
    byte == 45 || byte == 46 || byte == 95 || byte == 126

def hexDigit (n : Nat) : Char := if n < 10 then Char.ofNat (48 + n) else Char.ofNat (55 + n)

def escapeByte (byte : UInt8) : Text :=
  if isUnreserved byte then [Char.ofNat byte.toNat] else ['%', hexDigit (byte.toNat / 16), hexDigit (byte.toNat % 16)]

def urlEscape (value : Text) : Text := (Utf8.encode value).flatMap escapeByte

def nextHref (listing : Listing) : Option Text :=
  listing.nextAfter.map fun cursor => "?after=".toList ++ urlEscape cursor

def cursorOf (target : Text) : Option Text := ((splitOnce '?' target).map Prod.snd).bind queryAfter

/-- The listings that a client sees from a target on when it follows the links to the next page. A link that is only a
query keeps the path of the request. -/
inductive Visits (disk : Disk) (path requestPath : Text) (pageSize : Nat) : Text → List Listing → Prop
  | last {target : Text} {listing : Listing}
      (scanned : scanDirectory disk path (cursorOf target) pageSize = .ok listing) (ends : nextHref listing = none) :
      Visits disk path requestPath pageSize target [listing]
  | next {target href : Text} {listing : Listing} {later : List Listing}
      (scanned : scanDirectory disk path (cursorOf target) pageSize = .ok listing)
      (link : nextHref listing = some href) (rest : Visits disk path requestPath pageSize (requestPath ++ href) later) :
      Visits disk path requestPath pageSize target (listing :: later)

def digitByte (n : Nat) : UInt8 := UInt8.ofNat (hexDigit n).toNat

theorem escapeByte_cases (byte : UInt8) :
    (Utf8.encode (escapeByte byte) = [byte] ∧ byte ≠ percent) ∨
      Utf8.encode (escapeByte byte) = [percent, digitByte (byte.toNat / 16), digitByte (byte.toNat % 16)] ∧
        hexByte (digitByte (byte.toNat / 16)) (digitByte (byte.toNat % 16)) = some byte := by
  have all : ∀ n : Fin 256, (Utf8.encode (escapeByte (UInt8.ofNat n.val)) = [UInt8.ofNat n.val] ∧
      UInt8.ofNat n.val ≠ percent) ∨
      Utf8.encode (escapeByte (UInt8.ofNat n.val)) = [percent, digitByte (n.val / 16), digitByte (n.val % 16)] ∧
        hexByte (digitByte (n.val / 16)) (digitByte (n.val % 16)) = some (UInt8.ofNat n.val) := by decide +kernel
  have here := all ⟨byte.toNat, byte.toNat_lt⟩
  rwa [UInt8.ofNat_toNat] at here

theorem unescape_escapeByte (byte : UInt8) (rest : List UInt8) :
    unescape (Utf8.encode (escapeByte byte) ++ rest) = (unescape rest).map (byte :: ·) := by
  rcases escapeByte_cases byte with ⟨same, other⟩ | ⟨escaped, value⟩
  · rw [same, List.singleton_append]
    rcases rest with _ | ⟨high, _ | ⟨low, rest⟩⟩ <;> simp only [unescape, if_neg other]
  · grind [unescape]

theorem unescape_urlEscape (bytes : List UInt8) : unescape (Utf8.encode (bytes.flatMap escapeByte)) = some bytes := by
  induction bytes with
  | nil => rfl
  | cons byte rest ih => grind [Utf8.encode_append, unescape_escapeByte]

theorem percentDecode_urlEscape {name : Text} (nulFree : '\x00' ∉ name) : percentDecode (urlEscape name) = .ok name := by
  refine percentDecode_of_unescape (unescape_urlEscape _) ?_
  rw [Bool.eq_false_iff, ne_eq, List.contains_iff_mem]
  exact fun nul => nulFree ((Utf8.ascii_mem_encode (by decide) name).mp nul)

theorem mem_escapeByte {byte : UInt8} {c : Char} (member : c ∈ escapeByte byte) : c ≠ '&' ∧ c ≠ '?' := by
  have all : ∀ n : Fin 256, ((escapeByte (UInt8.ofNat n.val)).all fun c => c != '&' && c != '?') = true := by
    decide +kernel
  have here := all ⟨byte.toNat, byte.toNat_lt⟩
  grind [UInt8.ofNat_toNat]

theorem queryAfter_escaped {name : Text} (nulFree : '\x00' ∉ name) :
    queryAfter ("after=".toList ++ urlEscape name) = some name := by
  have single : ("after=".toList ++ urlEscape name).splitOn '&' = ["after=".toList ++ urlEscape name] := by
    refine List.splitOn_eq_singleton fun member => ?_
    rcases List.mem_append.mp member with fixed | escaped
    · exact absurd fixed (by decide)
    · obtain ⟨byte, -, inByte⟩ := List.mem_flatMap.mp escaped
      exact (mem_escapeByte inByte).1 rfl
  have stripped : stripPrefix "after=".toList ("after=".toList ++ urlEscape name) = some (urlEscape name) :=
    stripPrefix_eq_some.mpr rfl
  rw [queryAfter, single, List.findSome?_singleton, stripped, Option.bind_some, percentDecode_urlEscape nulFree]
  rfl

theorem cursorOf_link {requestPath name : Text} (path : '?' ∉ requestPath) (nulFree : '\x00' ∉ name) :
    cursorOf (requestPath ++ ("?after=".toList ++ urlEscape name)) = some name := by
  have split : splitOnce '?' (requestPath ++ ("?after=".toList ++ urlEscape name)) =
      some (requestPath, "after=".toList ++ urlEscape name) := splitOnce_eq_some.mpr ⟨rfl, path⟩
  grind [cursorOf, queryAfter_escaped]

theorem cursorOf_path {requestPath : Text} (path : '?' ∉ requestPath) : cursorOf requestPath = none := by
  rw [cursorOf, splitOnce_eq_none.mpr path]
  rfl

section Walk

variable {disk : Disk} {path requestPath : Text} {pageSize : Nat} {found : List DirEntry}

theorem byteKey_injective : Function.Injective byteKey := by
  intro a b same
  refine Utf8.encode_inj (List.map_injective_iff.mpr ?_ same)
  exact fun x y equal => UInt8.toNat_inj.mp equal

theorem name_listedName (disk : Disk) (path : Text) (entry : DirEntry) : (listedName disk path entry).name = entry.name := by
  unfold listedName
  split <;> rfl

theorem sortedNames_perm (disk : Disk) (path : Text) (found : List DirEntry) :
    (sortedNames disk path found).Perm (found.map (listedName disk path)) :=
  List.perm_insertionSort _ _

theorem sortedNames_sorted (distinct : (found.map DirEntry.name).Nodup) :
    (sortedNames disk path found).Pairwise fun a b => byteKey a.name < byteKey b.name := by
  have names : ((sortedNames disk path found).map ListedName.name).Nodup := by
    have same : (found.map (listedName disk path)).map ListedName.name = found.map DirEntry.name := by
      grind [List.map_congr_left, name_listedName]
    grind [sortedNames_perm]
  have sorted : (sortedNames disk path found).Pairwise fun a b => byteKey a.name ≤ byteKey b.name := by
    have total : Std.Total fun a b : ListedName => byteKey a.name ≤ byteKey b.name := ⟨fun a b => le_total _ _⟩
    have trans : IsTrans ListedName fun a b => byteKey a.name ≤ byteKey b.name := ⟨fun a b c => le_trans⟩
    exact List.pairwise_insertionSort _ _
  rw [List.Nodup, List.pairwise_map] at names
  refine (sorted.and names).imp fun {a b} both => lt_of_le_of_ne both.1 fun same => both.2 (byteKey_injective same)

def listingOf (disk : Disk) (path : Text) (names : List ListedName) (page : Pages.Page ListedName Text) : Listing where
  directories := names.countP ListedName.isDir
  files := names.length - names.countP ListedName.isDir
  startOrdinal := page.start + 1
  entries := page.items.map (listedEntry disk path)
  nextAfter := page.next

theorem scanDirectory_eq (read : disk.readDir path = .ok found) (after : Option Text) (pageSize : Nat) :
    scanDirectory disk path after pageSize = .ok (listingOf disk path (sortedNames disk path found)
      (Pages.page ListedName.name byteKey pageSize (sortedNames disk path found) after)) := by
  rw [scanDirectory, read]
  cases after <;> rfl

theorem nulFree_of_next {after : Option Text} {cursor : Text}
    (link : (Pages.page ListedName.name byteKey pageSize (sortedNames disk path found) after).next = some cursor) :
    '\x00' ∉ cursor := by
  have last := (Option.ite_none_right_eq_some.mp link).2
  obtain ⟨listed, isLast, rfl⟩ := Option.map_eq_some_iff.mp last
  have member := (sortedNames_perm disk path found).mem_iff.mp (List.mem_of_getElem? isLast)
  grind [name_listedName, DirEntry.nulFree]

theorem visits_of_walk (read : disk.readDir path = .ok found) (bare : '?' ∉ requestPath) {after : Option Text}
    {pages : List (Pages.Page ListedName Text)}
    (walk : Pages.Walk ListedName.name byteKey pageSize (sortedNames disk path found) after pages) {target : Text}
    (cursor : cursorOf target = after) :
    Visits disk path requestPath pageSize target (pages.map (listingOf disk path (sortedNames disk path found))) := by
  induction walk generalizing target with
  | last ends =>
    refine .last (by rw [cursor, scanDirectory_eq read]) ?_
    rw [nextHref, listingOf, ends]
    rfl
  | next link rest ih =>
    refine .next (by rw [cursor, scanDirectory_eq read]) ?_ (ih (cursorOf_link bare (nulFree_of_next link)))
    rw [nextHref, listingOf, link]
    rfl

theorem Visits.unique {target : Text} {listings others : List Listing}
    (visits : Visits disk path requestPath pageSize target listings)
    (other : Visits disk path requestPath pageSize target others) : others = listings := by
  induction visits generalizing others with
  | last scanned ends =>
    cases other with
    | last again _ => grind
    | next again link _ => grind
  | next scanned link rest ih =>
    cases other with
    | last again ends => grind
    | next again sameLink later => grind

end Walk

/-- A client that follows the links sees every entry once, in the order of the bytes of the names. There is one page
for each `pageSize` entries or part of them, and one for an empty directory. -/
theorem pagination_complete {disk : Disk} {path requestPath : Text} {found : List DirEntry} {pageSize : Nat}
    (read : disk.readDir path = .ok found) (distinct : (found.map DirEntry.name).Nodup) (positive : 0 < pageSize)
    (bare : '?' ∉ requestPath) :
    ∃ listings, Visits disk path requestPath pageSize requestPath listings ∧
      (∀ others, Visits disk path requestPath pageSize requestPath others → others = listings) ∧
      (∃ names : List ListedName, names.Perm (found.map (listedName disk path)) ∧
        names.Pairwise (fun a b => byteKey a.name < byteKey b.name) ∧
        listings.flatMap Listing.entries = names.map (listedEntry disk path)) ∧
      listings.length = max 1 ((found.length + pageSize - 1) / pageSize) ∧
      ∀ k listing, listings[k]? = some listing →
        listing.startOrdinal = ((listings.take k).flatMap Listing.entries).length + 1 := by
  have sorted : (sortedNames disk path found).Pairwise _ := sortedNames_sorted distinct
  have perm := sortedNames_perm disk path found
  have size : (sortedNames disk path found).length = found.length := by rw [perm.length_eq, List.length_map]
  obtain ⟨pages, walk, items, count, starts⟩ := Pages.walk_from sorted positive .first (Nat.zero_le _)
  have visits := visits_of_walk read bare walk (cursorOf_path bare)
  have entries : ∀ some_ : List (Pages.Page ListedName Text),
      (some_.map (listingOf disk path (sortedNames disk path found))).flatMap Listing.entries =
        (some_.flatMap Pages.Page.items).map (listedEntry disk path) := by
    intro some_
    rw [List.flatMap_map, List.map_flatMap]
    rfl
  refine ⟨_, visits, fun others => visits.unique, ⟨_, perm, sorted, ?_⟩, ?_, ?_⟩
  · rw [entries, items, List.drop_zero]
  · grind
  · intro k listing at_
    rw [List.getElem?_map] at at_
    obtain ⟨page, isPage, rfl⟩ := Option.map_eq_some_iff.mp at_
    rw [← List.map_take, entries, List.length_map, listingOf, starts k page isPage, Nat.zero_add]

section Example

def shelfEntries : List DirEntry :=
  [⟨"b".toList, .other, by decide⟩, ⟨"a&c".toList, .directory, by decide⟩, ⟨"100%?".toList, .symlink, by decide⟩]

def shelf (entries : List DirEntry) : Disk where
  readDir _ := .ok entries
  metadata _ := none
  readLink _ := none

theorem pagination_complete_shelf :
    ∃ listings, Visits (shelf shelfEntries) "/srv".toList "/".toList 2 "/".toList listings ∧ listings.length = 2 ∧
      (listings.flatMap Listing.entries).length = 3 := by
  obtain ⟨listings, visits, -, ⟨names, perm, -, entries⟩, count, -⟩ :=
    @pagination_complete (shelf shelfEntries) "/srv".toList "/".toList shelfEntries 2 rfl (by decide +kernel) (by decide)
      (by decide)
  refine ⟨listings, visits, count, ?_⟩
  rw [entries, List.length_map, perm.length_eq]
  rfl

/-- An empty directory is one page. -/
theorem empty_directory_is_one_page :
    ¬ ∃ listings, Visits (shelf []) "/srv".toList "/".toList 2 "/".toList listings ∧
      listings.length = (([] : List DirEntry).length + 2 - 1) / 2 := by
  rintro ⟨listings, visits, count⟩
  cases visits with
  | last scanned ends => cases count
  | next scanned link rest => cases count

end Example

end TlsProxy.Http
