import NanoPowServer.ConfigFile
import NanoPowServer.Library.TomlText
import NanoPowServer.Util.HexInput

/-! The exported configuration against the reader: which settings of the exported text
are read, and what the text does when all of its settings are comments. -/
namespace NanoPowServer.Config

open Toml

variable [Cpptoml]

section Settings

variable {table : Table} {key : String}

theorem stringOr_some {text : String} (h : table key = some (.string text)) (default : String) :
    stringOr table key default = text := by
  rw [stringOr, h, Option.bind_some, Cpptoml.asString_string, Option.getD_some]

theorem boolOr_some {value : Bool} (h : table key = some (.boolean value)) (default : Bool) :
    boolOr table key default = value := by
  rw [boolOr, h, Option.bind_some, Cpptoml.asBool_boolean, Option.getD_some]

theorem unsignedOr_some {bits value : Nat} (h : table key = some (.integer value))
    (hRange : value < 2 ^ bits) (default : Nat) :
    unsignedOr bits table key default = .ok value := by
  rw [unsignedOr, h]
  simp only [Cpptoml.asUnsigned_integer hRange, Option.getD_some]

theorem stringOr_none (h : table key = none) (default : String) :
    stringOr table key default = default := by
  rw [stringOr, h]
  rfl

theorem boolOr_none (h : table key = none) (default : Bool) :
    boolOr table key default = default := by
  rw [boolOr, h]
  rfl

theorem unsignedOr_none (h : table key = none) (bits default : Nat) :
    unsignedOr bits table key default = .ok default := by
  rw [unsignedOr, h]

end Settings

def rowsTable (rows : List Entry) : Table := fun key =>
  (rows.map fun row => (row.key, row.value)).lookup key

theorem readServer_rows (server default : Server) :
    readServer default (rowsTable (serverRows server)) = .ok server := by
  have hBind : rowsTable (serverRows server) "bind" = some (.string server.bindAddress) := rfl
  have hPort : rowsTable (serverRows server) "port" = some (.integer server.port.toNat) := rfl
  have hThreads : rowsTable (serverRows server) "threads" = some (.integer server.threads.toNat) :=
    rfl
  have hPrioritization : rowsTable (serverRows server) "allow_prioritization" =
      some (.boolean server.allowPrioritization) := rfl
  have hControl : rowsTable (serverRows server) "allow_control" =
      some (.boolean server.allowControl) := rfl
  have hLimit : rowsTable (serverRows server) "request_limit" =
      some (.integer server.requestLimit.toNat) := rfl
  have hLog : rowsTable (serverRows server) "log_to_stderr" =
      some (.boolean server.logToStderr) := rfl
  rw [readServer, stringOr_some hBind, boolOr_some hPrioritization, boolOr_some hControl,
    boolOr_some hLog, unsignedOr_some hPort server.port.toNat_lt,
    unsignedOr_some hThreads server.threads.toNat_lt,
    unsignedOr_some hLimit server.requestLimit.toNat_lt]
  simp [bind, Except.bind]

theorem readServer_empty (server : Server) : readServer server (fun _ => none) = .ok server := by
  simp [readServer, stringOr_none, boolOr_none, unsignedOr_none, bind, Except.bind]

theorem readWork_rows {text : String} {base : U128} (work : Work)
    (hBase : ∀ x, Bigint.readHex x text = .ok base) (delay : UInt16) :
    readWork work (rowsTable (workRows text delay)) = .ok ⟨base, delay⟩ := by
  have hText : rowsTable (workRows text delay) "base_difficulty" = some (.string text) := rfl
  have hDelay : rowsTable (workRows text delay) "mock_work_generation_delay" =
      some (.integer delay.toNat) := rfl
  rw [readWork, stringOr_some hText, hBase, unsignedOr_some hDelay delay.toNat_lt]
  simp [bind, Except.bind, Except.mapError]

/-- Without the key, the base difficulty is read from its default text. -/
theorem readWork_empty : readWork {} (fun _ => none) = .ok {} := by
  have hBase : Bigint.readHex ({} : Work).baseDifficulty BASE_DIFFICULTY =
      .ok ({} : Work).baseDifficulty := by decide
  rw [readWork, stringOr_none rfl, hBase, unsignedOr_none rfl]
  rfl

theorem readAdmin_rows (admin default : Admin) :
    readAdmin default (rowsTable (adminRows admin)) = admin := by
  have hPath : rowsTable (adminRows admin) "path" = some (.string admin.docRoot) := rfl
  have hEnable : rowsTable (adminRows admin) "enable" = some (.boolean admin.enable) := rfl
  have hRemote : rowsTable (adminRows admin) "allow_remote" = some (.boolean admin.allowRemote) :=
    rfl
  rw [readAdmin, stringOr_some hPath, boolOr_some hEnable, boolOr_some hRemote]

theorem readAdmin_empty (admin : Admin) : readAdmin admin (fun _ => none) = admin := rfl

/-- The values of the keys that are written as `device_id` and `platform_id` are not
looked at. -/
theorem readDevice_rows {text : String} {type : DeviceType}
    (hType : text = "cpu" ∧ type = .cpu ∨ text = "gpu" ∧ type = .gpu) (deviceId platformId : Nat)
    {memory threads : Nat} (hMemory : memory < 2 ^ 64) (hThreads : threads < 2 ^ 64) :
    readDevice (rowsTable (deviceRows text deviceId platformId memory threads)) =
      .ok { type, threads := UInt64.ofNat threads, memory := UInt64.ofNat memory } := by
  generalize hTable : rowsTable (deviceRows text deviceId platformId memory threads) = table
  have hPlatform : table "platform" = none := by
    rw [← hTable]
    rfl
  have hDevice : table "device" = none := by
    rw [← hTable]
    rfl
  have hText : table "type" = some (.string text) := by
    rw [← hTable]
    rfl
  have hMemoryRow : table "memory" = some (.integer memory) := by
    rw [← hTable]
    rfl
  have hThreadsRow : table "threads" = some (.integer threads) := by
    rw [← hTable]
    rfl
  rw [readDevice, unsignedOr_none hPlatform, unsignedOr_none hDevice,
    unsignedOr_some hThreadsRow hThreads, unsignedOr_some hMemoryRow hMemory, stringOr_some hText]
  rcases hType with ⟨rfl, rfl⟩ | ⟨rfl, rfl⟩ <;> rfl

/-- A device table without keys is a device with the defaults. -/
theorem readDevice_empty : readDevice (fun _ => none) = .ok {} := by
  rw [readDevice, unsignedOr_none rfl, unsignedOr_none rfl, unsignedOr_none rfl,
    unsignedOr_none rfl, stringOr_none rfl]
  rfl

omit [Cpptoml] in
theorem document_tables (written : Written) :
    written.tables.document "server" = some (.table (rowsTable (serverRows written.server))) ∧
      written.tables.document "work" = some (.table (rowsTable
        (workRows written.baseDifficulty written.mockWorkGenerationDelay))) ∧
      written.tables.document "device" = some (.table (rowsTable (deviceRows written.type
        written.deviceId written.platformId written.memory written.threads))) ∧
      written.tables.document "admin" = some (.table (rowsTable (adminRows written.admin))) :=
  ⟨rfl, rfl, rfl, rfl⟩

/-- What is read from the tables that are written. -/
theorem ofTree_written {written : Written} {base : U128} {type : DeviceType}
    (hBase : ∀ x, Bigint.readHex x written.baseDifficulty = .ok base)
    (hType : written.type = "cpu" ∧ type = .cpu ∨ written.type = "gpu" ∧ type = .gpu)
    (hMemory : written.memory < 2 ^ 64) (hThreads : written.threads < 2 ^ 64)
    (hardwareConcurrency : UInt32) :
    ofTree (initial hardwareConcurrency) written.tables.document = .ok
      { server := written.server
        devices := [{ type, threads := UInt64.ofNat written.threads
                      memory := UInt64.ofNat written.memory }]
        work := ⟨base, written.mockWorkGenerationDelay⟩
        admin := written.admin } := by
  obtain ⟨hServer, hWork, hDevice, hAdmin⟩ := document_tables written
  rw [ofTree, hServer, hWork, hDevice, hAdmin]
  simp only [getTable, readDevices, bind, Except.bind, readServer_rows, readWork_rows _ hBase,
    readDevice_rows hType _ _ hMemory hThreads, readAdmin_rows]
  rfl

omit [Cpptoml] in
theorem document_clear (written : Written) :
    written.tables.document.clear "server" = some (.table fun _ => none) ∧
      written.tables.document.clear "work" = some (.table fun _ => none) ∧
      written.tables.document.clear "device" = some (.table fun _ => none) ∧
      written.tables.document.clear "admin" = some (.table fun _ => none) :=
  ⟨rfl, rfl, rfl, rfl⟩

/-- What is read where all tables are there and empty. -/
theorem ofTree_clear (written : Written) (hardwareConcurrency : UInt32) :
    ofTree (initial hardwareConcurrency) written.tables.document.clear =
      .ok { initial hardwareConcurrency with devices := [{}] } := by
  have hWorkTable : readWork (initial hardwareConcurrency).work (fun _ => none) =
      .ok (initial hardwareConcurrency).work := readWork_empty
  obtain ⟨hServer, hWork, hDevice, hAdmin⟩ := document_clear written
  rw [ofTree, hServer, hWork, hDevice, hAdmin]
  simp only [getTable, readDevices, bind, Except.bind, readServer_empty, hWorkTable,
    readDevice_empty, readAdmin_empty]
  rfl

/-- The integers that are written are integers of TOML. -/
structure Written.InRange (written : Written) : Prop where
  deviceId : written.deviceId < 2 ^ 63
  platformId : written.platformId < 2 ^ 63
  memory : written.memory < 2 ^ 63
  threads : written.threads < 2 ^ 63

omit [Cpptoml] in
theorem isScalar_natCast {value : Nat} (h : value < 2 ^ 63) : (Value.integer value).IsScalar :=
  ⟨by omega, by omega⟩

omit [Cpptoml] in
theorem Written.InRange.wellFormed {written : Written} (h : written.InRange) :
    written.tables.WellFormed where
  names_nodup := by
    change ["server", "work", "device", "admin"].Nodup
    decide
  names_bare := by
    simp only [Written.tables, List.forall_mem_cons]
    exact ⟨by decide, by decide, by decide, by decide, by simp⟩
  keys_nodup := by
    simp only [Written.tables, List.forall_mem_cons]
    refine ⟨?_, ?_, ?_, ?_, by simp⟩
    · change ["bind", "port", "threads", "allow_prioritization", "allow_control", "request_limit",
        "log_to_stderr"].Nodup
      decide
    · change ["base_difficulty", "mock_work_generation_delay"].Nodup
      decide
    · change ["type", "device_id", "platform_id", "memory", "threads"].Nodup
      decide
    · change ["allow_remote", "enable", "path"].Nodup
      decide
  rows_valid := by
    have hShort (value : UInt16) : (Value.integer value.toNat).IsScalar :=
      isScalar_natCast (Nat.lt_trans value.toNat_lt (by decide))
    have hLimit : (Value.integer written.server.requestLimit.toNat).IsScalar :=
      isScalar_natCast (Nat.lt_trans written.server.requestLimit.toNat_lt (by decide))
    have hServer : ∀ row ∈ serverRows written.server, IsBare row.key ∧ row.value.IsScalar := by
      simp only [serverRows, List.forall_mem_cons]
      exact ⟨⟨by decide, trivial⟩, ⟨by decide, hShort _⟩, ⟨by decide, hShort _⟩,
        ⟨by decide, trivial⟩, ⟨by decide, trivial⟩, ⟨by decide, hLimit⟩, ⟨by decide, trivial⟩,
        by simp⟩
    have hWork : ∀ row ∈ workRows written.baseDifficulty written.mockWorkGenerationDelay,
        IsBare row.key ∧ row.value.IsScalar := by
      simp only [workRows, List.forall_mem_cons]
      exact ⟨⟨by decide, trivial⟩, ⟨by decide, hShort _⟩, by simp⟩
    have hDevice : ∀ row ∈ deviceRows written.type written.deviceId written.platformId
        written.memory written.threads, IsBare row.key ∧ row.value.IsScalar := by
      simp only [deviceRows, List.forall_mem_cons]
      exact ⟨⟨by decide, trivial⟩, ⟨by decide, isScalar_natCast h.deviceId⟩,
        ⟨by decide, isScalar_natCast h.platformId⟩, ⟨by decide, isScalar_natCast h.memory⟩,
        ⟨by decide, isScalar_natCast h.threads⟩, by simp⟩
    have hAdmin : ∀ row ∈ adminRows written.admin, IsBare row.key ∧ row.value.IsScalar := by
      simp only [adminRows, List.forall_mem_cons]
      exact ⟨⟨by decide, trivial⟩, ⟨by decide, trivial⟩, ⟨by decide, trivial⟩, by simp⟩
    simp only [Written.tables, List.forall_mem_cons]
    exact ⟨hServer, hWork, hDevice, hAdmin, by simp⟩

omit [Cpptoml] in
/-- Every configuration can be exported. -/
theorem inRange_written (config : Config) : config.written.InRange := by
  have hZero : 0 < 2 ^ 63 := by decide
  exact ⟨hZero, hZero, hZero, hZero⟩

/-- The loop turns the text of an item into the text of a comment, and leaves the other
lines as they are. -/
theorem commentOut_render {line : Line} (h : line.Valid) :
    commentOut (line.render Cpptoml.renderItem) =
      (line.commentItem Cpptoml.renderItem).render Cpptoml.renderItem := by
  cases line with
  | blank | header name | comment text => rfl
  | item key value =>
      obtain ⟨c, rest, hText, hHead⟩ := Cpptoml.renderItem_head key value h.1 h.2
      rw [Line.commentItem, Line.render, Line.render, String.toList_ofList, hText, commentOut,
        if_pos hHead]

/-- The text that the writer would export without the loop. -/
def writtenText (lines : List Line) : String :=
  String.ofList (Toml.text Cpptoml.renderItem lines)

theorem exportDocumented_eq (config : Config) :
    exportDocumented config =
      writtenText (commentItems Cpptoml.renderItem (Cpptoml.write config.written.tables)) := by
  have hLines := Cpptoml.wellFormed_write (inRange_written config).wellFormed
  have hCommented : (Cpptoml.write config.written.tables).map
        (commentOut ∘ Line.render Cpptoml.renderItem) =
      (Cpptoml.write config.written.tables).map
        (Line.render Cpptoml.renderItem ∘ Line.commentItem Cpptoml.renderItem) :=
    List.map_congr_left fun line hMem => commentOut_render (hLines.valid line hMem)
  unfold exportDocumented
  dsimp only
  rw [getlines_text Cpptoml.newline_notMem_renderItem hLines.valid, List.map_map, hCommented,
    writtenText, Toml.text, commentItems, List.map_map]

/-- The exported line with the number sign of an item removed. -/
def uncomment : Line → List Char → List Char
  | .item _ _, exported => exported.tail
  | _, exported => exported

/-- Without the number signs of the items, the exported text is what the writer has
written. -/
theorem uncomment_exportDocumented (config : Config) :
    String.ofList (unlines (List.zipWith uncomment (Cpptoml.write config.written.tables)
        (getlines (exportDocumented config).toList))) =
      writtenText (Cpptoml.write config.written.tables) := by
  have hLines := Cpptoml.wellFormed_write (inRange_written config).wellFormed
  have hCommented := hLines.commentItems fun key value hMem =>
    Cpptoml.newline_notMem_renderItem key value (hLines.valid _ hMem).1 (hLines.valid _ hMem).2
  rw [exportDocumented_eq, writtenText, String.toList_ofList,
    getlines_text Cpptoml.newline_notMem_renderItem hCommented.valid, writtenText, Toml.text,
    commentItems]
  congr 2
  rw [List.map_map, List.zipWith_map_right, List.zipWith_self]
  refine List.map_congr_left fun line _ => ?_
  cases line <;> simp [uncomment, Line.render, Line.commentItem]

theorem load_writtenText {lines : List Line} (h : WellFormed lines) (hardwareConcurrency : UInt32) :
    load hardwareConcurrency (some (writtenText lines)) [] =
      ofTree (initial hardwareConcurrency) (document lines) := by
  have hTree : readConfig (some (writtenText lines)) [] = .ok (document lines) := by
    have hOverrides : String.join (([] : List String).map (· ++ "\n")) ++ "\n" = "\n" := rfl
    simp only [readConfig, hOverrides, Option.getD_some, writtenText, Cpptoml.parse_text h]
  rw [load, hTree]
  rfl

/-- No file is read like an empty line. -/
theorem load_none (hardwareConcurrency : UInt32) :
    load hardwareConcurrency none [] = .ok (initial hardwareConcurrency) := by
  have hBlank : WellFormed [.blank] :=
    ⟨by simp [Line.Valid], by simp [headers], by simp [entries], by simp [entries]⟩
  exact load_writtenText hBlank hardwareConcurrency

/-- What the exported text, loaded as it is, sets: there is a device table, so there is
a device. -/
theorem load_exportDocumented (hardwareConcurrency : UInt32) (config : Config) :
    load hardwareConcurrency (some (exportDocumented config)) [] =
      .ok { initial hardwareConcurrency with devices := [{}] } := by
  have hTables := (inRange_written config).wellFormed
  have hLines := Cpptoml.wellFormed_write hTables
  have hCommented := hLines.commentItems fun key value hMem =>
    Cpptoml.newline_notMem_renderItem key value (hLines.valid _ hMem).1 (hLines.valid _ hMem).2
  rw [exportDocumented_eq, load_writtenText hCommented, document_commentItems,
    Cpptoml.document_write hTables]
  exact ofTree_clear config.written hardwareConcurrency

/-- The devices differ from those without a file. -/
theorem load_exportDocumented_ne (hardwareConcurrency : UInt32) (config : Config) :
    load hardwareConcurrency (some (exportDocumented config)) [] ≠
      load hardwareConcurrency none [] := by
  rw [load_exportDocumented, load_none]
  intro h
  have hDevices := congrArg Config.devices (Except.ok.inj h)
  exact absurd hDevices (by simp [initial])

/-- Loading the exported text is like having no file. -/
def Inert (hardwareConcurrency : UInt32) (config : Config) : Prop :=
  load hardwareConcurrency (some (exportDocumented config)) [] = load hardwareConcurrency none []

/-- The sample configuration is never inert: it adds a device with the defaults. -/
theorem not_inert (hardwareConcurrency : UInt32) (config : Config) :
    ¬ Inert hardwareConcurrency config :=
  load_exportDocumented_ne hardwareConcurrency config

omit [Cpptoml] in
theorem readLines_newline : readLines "\n".toList = some [.blank] := by decide

/-- The lines of the overrides come first, so they are found first. -/
@[reducible] def lineCpptoml : Cpptoml where
  write := writeLines
  renderItem := renderItem
  parseBaseAndOverrideFiles overrides base :=
    match readLines overrides.toList, readLines base.toList with
    | some front, some back => .ok (document (front ++ back))
    | _, _ => .error "unidentified trailing character"
  asString
    | .string text => some text
    | _ => none
  asBool
    | .boolean value => some value
    | _ => none
  asUnsigned bits
    | .integer value =>
        if value < 0 then .error "T cannot store negative value in get"
        else if value < 2 ^ bits then .ok (some value.toNat)
        else .error "T cannot store value requested in get"
    | _ => .ok none
  wellFormed_write := wellFormed_writeLines
  document_write := document_writeLines
  newline_notMem_renderItem _ _ := newline_notMem_renderItem
  renderItem_head key value hKey _ := by
    obtain ⟨c, rest, hName, hBare⟩ := hKey.exists_head
    refine ⟨c, _, by rw [renderItem, hName, List.cons_append], ?_, ?_⟩
    · rintro rfl
      exact absurd hBare (by decide)
    · rintro rfl
      exact absurd hBare (by decide)
  parse_text h := by
    simp only [readLines_newline, String.toList_ofList, readLines_text h.valid]
    rfl
  asString_string _ := rfl
  asBool_boolean _ := rfl
  asUnsigned_integer {bits value} h := by
    have hRange : (value : Int) < 2 ^ bits := by exact_mod_cast h
    simp [hRange]

omit [Cpptoml] in
/-- A host with four threads and the defaults. -/
theorem not_inert_initial : ¬ ∀ [Cpptoml], Inert 4 (initial 4) := by
  intro h
  have : Cpptoml := lineCpptoml
  exact load_exportDocumented_ne 4 (initial 4) h

end NanoPowServer.Config
