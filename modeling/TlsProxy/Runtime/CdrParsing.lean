import TlsProxy.Lib.Csv
import TlsProxy.Runtime.Accounting

/-! The lines that `accounting.rs` writes. A reader of comma-separated values finds in
a log file the header row and then the records, field by field, without their
control characters. -/
namespace TlsProxy.CdrLog
open Text Accounting

def listenerTypeStr : ListenerType → Text
  | .tlsPassthrough => "TLS_PASSTHROUGH".toList
  | .tlsTerminate => "TLS_TERMINATE".toList
  | .portForward => "PORT_FORWARD".toList
  | .httpPassthrough => "HTTP_PASSTHROUGH".toList

def connStatusStr : ConnStatus → Text
  | .ok => "OK".toList
  | .denied => "DENIED".toList
  | .connectFailed => "CONNECT_FAILED".toList

def isControl (c : Char) : Bool := c.toNat ≤ 0x1F || (0x7F ≤ c.toNat && c.toNat ≤ 0x9F)

def csvField (value : Text) : Text :=
  let cleaned := value.filter fun c => !isControl c
  if cleaned.contains ',' || cleaned.contains '"' then
    '"' :: cleaned.flatMap (fun c => if c = '"' then ['"', '"'] else [c]) ++ ['"']
  else cleaned

def csvHeader : Text :=
  ("listener_type,connection_id,listener_name,sni,target_host,target_endpoint,remote_address,status," ++
    "uploaded_bytes,downloaded_bytes,connection_start,connection_end").toList

/-- How identifiers and times are printed. -/
structure Platform where
  requestId : Nat → Text
  formatRfc3339Ms : Nat → Text

def toCsvLine (platform : Platform) (record : CdrRecord) : Text :=
  join [','] [
    csvField (listenerTypeStr record.listenerType),
    csvField (platform.requestId record.connectionId),
    csvField record.listenerName,
    csvField record.sni,
    csvField record.targetHost,
    csvField record.targetEndpoint,
    csvField record.remoteAddress,
    csvField (connStatusStr record.status),
    ofNat record.uploadedBytes,
    ofNat record.downloadedBytes,
    platform.formatRfc3339Ms record.startUnixMs,
    platform.formatRfc3339Ms record.endUnixMs]

/-- The content of a log file with these lines. -/
def fileText (rows : List Text) : Text := (csvHeader :: rows).flatMap (· ++ ['\n'])

/-- Times are printed with digits and the signs of the format. -/
def Platform.PrintsTimes (platform : Platform) : Prop :=
  ∀ time, ∀ c ∈ platform.formatRfc3339Ms time, c.isDigit = true ∨ c ∈ "+-:.TZ".toList

def cleaned (value : Text) : Text := value.filter fun c => !isControl c

def columnNames : List Text :=
  ["listener_type".toList, "connection_id".toList, "listener_name".toList, "sni".toList, "target_host".toList,
    "target_endpoint".toList, "remote_address".toList, "status".toList, "uploaded_bytes".toList,
    "downloaded_bytes".toList, "connection_start".toList, "connection_end".toList]

def columnValues (platform : Platform) (record : CdrRecord) : List Text :=
  [listenerTypeStr record.listenerType, platform.requestId record.connectionId, record.listenerName, record.sni,
    record.targetHost, record.targetEndpoint, record.remoteAddress, connStatusStr record.status,
    ofNat record.uploadedBytes, ofNat record.downloadedBytes, platform.formatRfc3339Ms record.startUnixMs,
    platform.formatRfc3339Ms record.endUnixMs]

theorem csvField_eq (value : Text) : csvField value = Csv.encode (cleaned value) := rfl

theorem oneLine_cleaned (value : Text) : ∀ c ∈ cleaned value, c ≠ '\r' ∧ c ≠ '\n' := by
  intro c member
  have solid := (List.mem_filter.mp member).2
  refine ⟨?_, ?_⟩ <;> rintro rfl <;> exact absurd solid (by decide)

def Bare (value : Text) : Prop := ∀ c ∈ value, isControl c = false ∧ c ≠ ',' ∧ c ≠ '"'

theorem Bare.encode {value : Text} (bare : Bare value) : Csv.encode (cleaned value) = value := by
  have kept : cleaned value = value := by
    rw [cleaned, List.filter_eq_self]
    intro c member
    simp [(bare c member).1]
  rw [kept, Csv.encode, if_neg]
  simp only [Bool.or_eq_true, List.contains_iff_mem, not_or]
  exact ⟨fun comma => (bare _ comma).2.1 rfl, fun quote => (bare _ quote).2.2 rfl⟩

theorem bare_of_isDigit {c : Char} (digit : c.isDigit = true) : isControl c = false ∧ c ≠ ',' ∧ c ≠ '"' := by
  simp only [Char.isDigit, Bool.and_eq_true, decide_eq_true_eq, UInt32.le_iff_toNat_le] at digit
  have low : 48 ≤ c.toNat := digit.1
  have high : c.toNat ≤ 57 := digit.2
  refine ⟨?_, ?_, ?_⟩
  · simp only [isControl, Bool.or_eq_false_iff, Bool.and_eq_false_iff, decide_eq_false_iff_not]
    omega
  · rintro rfl
    exact absurd low (by decide)
  · rintro rfl
    exact absurd low (by decide)

theorem bare_ofNat (n : Nat) : Bare (ofNat n) := fun _ member => bare_of_isDigit (isDigit_of_mem_ofNat member)

theorem bare_formatRfc3339Ms {platform : Platform} (prints : platform.PrintsTimes) (time : Nat) :
    Bare (platform.formatRfc3339Ms time) := by
  intro c member
  rcases prints time c member with digit | sign
  · exact bare_of_isDigit digit
  · exact List.forall_iff_forall_mem.mp
      (by decide : List.Forall (fun c => isControl c = false ∧ c ≠ ',' ∧ c ≠ '"') "+-:.TZ".toList) c sign

theorem toCsvLine_newline {platform : Platform} (prints : platform.PrintsTimes) (record : CdrRecord) :
    toCsvLine platform record ++ ['\n'] = Csv.encodeLine ((columnValues platform record).map cleaned) := by
  unfold toCsvLine Csv.encodeLine columnValues
  simp only [csvField_eq, List.map_cons, List.map_nil, (bare_ofNat _).encode, (bare_formatRfc3339Ms prints _).encode]

theorem csvHeader_newline : csvHeader ++ ['\n'] = Csv.encodeLine columnNames := by decide +kernel

/-- The log file of any records is read as the header and these records, the control characters removed; a single line
is read as one record with a field for each column. -/
theorem cdr_lines_parse_back {platform : Platform} (prints : platform.PrintsTimes) (records : List CdrRecord) :
    Csv.parse (fileText (records.map (toCsvLine platform))) =
        some (columnNames :: records.map fun record => (columnValues platform record).map cleaned) ∧
      ∀ record, Csv.parse (toCsvLine platform record ++ ['\n']) = some [(columnValues platform record).map cleaned] ∧
        (columnValues platform record).length = 12 ∧ columnNames.length = 12 := by
  let values := fun record => (columnValues platform record).map cleaned
  have filled : ∀ record, values record ≠ [] := fun _ => List.cons_ne_nil _ _
  have oneLine : ∀ original : List Text, ∀ value ∈ original.map cleaned, ∀ c ∈ value, c ≠ '\r' ∧ c ≠ '\n' := by
    intro original value member
    obtain ⟨field, -, rfl⟩ := List.mem_map.mp member
    exact oneLine_cleaned field
  have names : columnNames.map cleaned = columnNames := by decide +kernel
  refine ⟨?_, fun record => ⟨?_, rfl, rfl⟩⟩
  · have written : fileText (records.map (toCsvLine platform)) =
        (columnNames :: records.map values).flatMap Csv.encodeLine := by
      simp only [fileText, List.flatMap_cons, csvHeader_newline, List.flatMap_map, toCsvLine_newline prints, values]
    rw [written, Csv.parse_flatMap_encodeLine]
    · refine List.forall_mem_cons.mpr ⟨List.cons_ne_nil _ _, fun _ member => ?_⟩
      obtain ⟨record, -, rfl⟩ := List.mem_map.mp member
      exact filled record
    · refine List.forall_mem_cons.mpr ⟨names ▸ oneLine columnNames, fun _ member => ?_⟩
      obtain ⟨record, -, rfl⟩ := List.mem_map.mp member
      exact oneLine _
  · have alone := @Csv.parse_flatMap_encodeLine [values record] (List.forall_mem_singleton.mpr (filled record))
      (List.forall_mem_singleton.mpr (oneLine _))
    rwa [List.flatMap_singleton, ← toCsvLine_newline prints] at alone

def plainPlatform : Platform where
  requestId := ofNat
  formatRfc3339Ms := ofNat

def forwarded (connectionId : Nat) : CdrRecord :=
  ⟨.portForward, connectionId, "edge".toList, [], "10.0.0.1".toList, [], [], .ok, 10, 20, 1, 2⟩

/-- A name with a comma, a quote and a line break. -/
theorem cdr_lines_parse_back_quoted :
    Csv.parse (toCsvLine plainPlatform { forwarded 1 with listenerName := "a,\"b\n".toList } ++ ['\n']) =
      some [["PORT_FORWARD".toList, "1".toList, "a,\"b".toList, [], "10.0.0.1".toList, [], [], "OK".toList,
        "10".toList, "20".toList, "1".toList, "2".toList]] := by
  have prints : plainPlatform.PrintsTimes := fun _ _ member => .inl (isDigit_of_mem_ofNat member)
  exact ((cdr_lines_parse_back prints []).2 _).1.trans (by decide +kernel)

end TlsProxy.CdrLog
