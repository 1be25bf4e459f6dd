import NanoPowServer.ConfigRoundTrip

/-! The documented schema: each key that is exported, the values that its documentation
allows, and the setting that it is read into. -/
namespace NanoPowServer.Config

open Toml

/-- The keys that are exported, table by table. -/
inductive Setting where
  | bind
  | port
  | serverThreads
  | allowPrioritization
  | allowControl
  | requestLimit
  | logToStderr
  | baseDifficulty
  | mockWorkGenerationDelay
  | deviceType
  | deviceId
  | platformId
  | memory
  | deviceThreads
  | allowRemote
  | enable
  | path
  deriving DecidableEq

/-- The integers that a key takes are natural numbers. -/
theorem exists_natCast {bits : Nat} {n : Int} (h : 0 ≤ n ∧ n < 2 ^ bits) :
    ∃ m : Nat, m < 2 ^ bits ∧ n = m := by
  obtain ⟨m, rfl⟩ := Int.eq_ofNat_of_zero_le h.1
  exact ⟨m, by exact_mod_cast h.2, rfl⟩

namespace Setting

def table : Setting → String
  | .bind | .port | .serverThreads | .allowPrioritization | .allowControl | .requestLimit
  | .logToStderr => "server"
  | .baseDifficulty | .mockWorkGenerationDelay => "work"
  | .deviceType | .deviceId | .platformId | .memory | .deviceThreads => "device"
  | .allowRemote | .enable | .path => "admin"

def key : Setting → String
  | .bind => "bind"
  | .port => "port"
  | .serverThreads | .deviceThreads => "threads"
  | .allowPrioritization => "allow_prioritization"
  | .allowControl => "allow_control"
  | .requestLimit => "request_limit"
  | .logToStderr => "log_to_stderr"
  | .baseDifficulty => "base_difficulty"
  | .mockWorkGenerationDelay => "mock_work_generation_delay"
  | .deviceType => "type"
  | .deviceId => "device_id"
  | .platformId => "platform_id"
  | .memory => "memory"
  | .allowRemote => "allow_remote"
  | .enable => "enable"
  | .path => "path"

/-- Texts, booleans and unsigned integers as documented. Integers of TOML have 63 bits
and a sign. -/
def Accepts : Setting → Value → Prop
  | .bind, .string _ | .path, .string _ => True
  | .baseDifficulty, .string text => ∃ number, Bigint.HexNumber 16 text number
  | .deviceType, .string text => text = "cpu" ∨ text = "gpu"
  | .port, .integer n | .serverThreads, .integer n | .mockWorkGenerationDelay, .integer n =>
      0 ≤ n ∧ n < 2 ^ 16
  | .requestLimit, .integer n => 0 ≤ n ∧ n < 2 ^ 32
  | .deviceId, .integer n | .platformId, .integer n | .memory, .integer n
  | .deviceThreads, .integer n => 0 ≤ n ∧ n < 2 ^ 63
  | .allowPrioritization, .boolean _ | .allowControl, .boolean _ | .logToStderr, .boolean _
  | .allowRemote, .boolean _ | .enable, .boolean _ => True
  | _, _ => False

def typeText : DeviceType → String
  | .cpu => "cpu"
  | .gpu => "gpu"

/-- The setting that the key stands for has the value. Those of a device are meant of
the only device. -/
def Holds (setting : Setting) (config : Config) (value : Value) : Prop :=
  match setting with
  | .bind => value = .string config.server.bindAddress
  | .port => value = .integer config.server.port.toNat
  | .serverThreads => value = .integer config.server.threads.toNat
  | .allowPrioritization => value = .boolean config.server.allowPrioritization
  | .allowControl => value = .boolean config.server.allowControl
  | .requestLimit => value = .integer config.server.requestLimit.toNat
  | .logToStderr => value = .boolean config.server.logToStderr
  | .baseDifficulty => ∃ text, value = .string text ∧
      Bigint.HexNumber 16 text config.work.baseDifficulty.number.toNat
  | .mockWorkGenerationDelay => value = .integer config.work.mockWorkGenerationDelay.toNat
  | .deviceType => ∃ dev, config.devices = [dev] ∧ value = .string (typeText dev.type)
  | .deviceId => ∃ dev, config.devices = [dev] ∧ value = .integer dev.deviceId.toNat
  | .platformId => ∃ dev, config.devices = [dev] ∧ value = .integer dev.platformId.toNat
  | .memory => ∃ dev, config.devices = [dev] ∧ value = .integer dev.memory.toNat
  | .deviceThreads => ∃ dev, config.devices = [dev] ∧ value = .integer dev.threads.toNat
  | .allowRemote => value = .boolean config.admin.allowRemote
  | .enable => value = .boolean config.admin.enable
  | .path => value = .string config.admin.docRoot

/-- What is written with another value for the key. -/
def update : Setting → Value → Written → Written
  | .bind, .string text, w => { w with server := { w.server with bindAddress := text } }
  | .port, .integer n, w => { w with server := { w.server with port := UInt16.ofNat n.toNat } }
  | .serverThreads, .integer n, w =>
      { w with server := { w.server with threads := UInt16.ofNat n.toNat } }
  | .allowPrioritization, .boolean b, w =>
      { w with server := { w.server with allowPrioritization := b } }
  | .allowControl, .boolean b, w => { w with server := { w.server with allowControl := b } }
  | .requestLimit, .integer n, w =>
      { w with server := { w.server with requestLimit := UInt32.ofNat n.toNat } }
  | .logToStderr, .boolean b, w => { w with server := { w.server with logToStderr := b } }
  | .baseDifficulty, .string text, w => { w with baseDifficulty := text }
  | .mockWorkGenerationDelay, .integer n, w =>
      { w with mockWorkGenerationDelay := UInt16.ofNat n.toNat }
  | .deviceType, .string text, w => { w with type := text }
  | .deviceId, .integer n, w => { w with deviceId := n.toNat }
  | .platformId, .integer n, w => { w with platformId := n.toNat }
  | .memory, .integer n, w => { w with memory := n.toNat }
  | .deviceThreads, .integer n, w => { w with threads := n.toNat }
  | .allowRemote, .boolean b, w => { w with admin := { w.admin with allowRemote := b } }
  | .enable, .boolean b, w => { w with admin := { w.admin with enable := b } }
  | .path, .string text, w => { w with admin := { w.admin with docRoot := text } }
  | _, _, w => w

/-- Allowed values can be written. -/
theorem isScalar_of_accepts {setting : Setting} {value : Value} (h : setting.Accepts value) :
    value.IsScalar := by
  cases value with
  | string | boolean => trivial
  | integer n =>
      have hRange : 0 ≤ n ∧ n < 2 ^ 63 := by
        cases setting with
        | port | serverThreads | mockWorkGenerationDelay | requestLimit =>
            exact ⟨h.1, Int.lt_trans h.2 (by decide)⟩
        | deviceId | platformId | memory | deviceThreads => exact h
        | _ => exact absurd h id
      exact ⟨by omega, hRange.2⟩
  | other => cases setting <;> exact absurd h id

/-- Replacing the value of a key in the tables is writing another value. -/
theorem replaceValue_tables {setting : Setting} {value : Value} (h : setting.Accepts value)
    (w : Written) :
    w.tables.replaceValue setting.table setting.key value = (setting.update value w).tables := by
  cases value with
  | string text =>
      cases setting with
      | bind | path | baseDifficulty | deviceType => rfl
      | _ => exact absurd h id
  | boolean b =>
      cases setting with
      | allowPrioritization | allowControl | logToStderr | allowRemote | enable => rfl
      | _ => exact absurd h id
  | integer n =>
      cases setting with
      | port | serverThreads | mockWorkGenerationDelay =>
          obtain ⟨m, hRange, rfl⟩ := exists_natCast h
          have hSame : (UInt16.ofNat m).toNat = m := UInt16.toNat_ofNat_of_lt' hRange
          simp only [update, Int.toNat_natCast, Written.tables, serverRows, workRows, hSame]
          rfl
      | requestLimit =>
          obtain ⟨m, hRange, rfl⟩ := exists_natCast h
          have hSame : (UInt32.ofNat m).toNat = m := UInt32.toNat_ofNat_of_lt' hRange
          simp only [update, Int.toNat_natCast, Written.tables, serverRows, hSame]
          rfl
      | deviceId | platformId | memory | deviceThreads =>
          obtain ⟨m, -, rfl⟩ := exists_natCast h
          rfl
      | _ => exact absurd h id
  | other => cases setting <;> exact absurd h id

end Setting

/-- The texts that are written mean something to the reader, and the integers are
integers of TOML. -/
structure Written.Readable (w : Written) (base : U128) (type : DeviceType) : Prop where
  inRange : w.InRange
  base : ∀ x, Bigint.readHex x w.baseDifficulty = .ok base
  type : w.type = "cpu" ∧ type = .cpu ∨ w.type = "gpu" ∧ type = .gpu

/-- The configuration that is read. -/
def Written.loaded (w : Written) (base : U128) (type : DeviceType) : Config where
  server := w.server
  devices := [{ type, threads := UInt64.ofNat w.threads, memory := UInt64.ofNat w.memory }]
  work := ⟨base, w.mockWorkGenerationDelay⟩
  admin := w.admin

theorem readable_written (config : Config) :
    config.written.Readable config.work.baseDifficulty .gpu where
  inRange := inRange_written config
  base x := by
    obtain ⟨-, -, hRead⟩ := Bigint.fromHex_toHex (by decide) config.work.baseDifficulty x
    change Bigint.readHex x config.work.baseDifficulty.toHex = _
    rw [Bigint.readHex, hRead]
  type := .inr ⟨rfl, rfl⟩

/-- What is written with the value for the key is read, and the setting that the key
stands for has the value, unless it is the id of a device or of its platform. -/
def Arrives (config : Config) (setting : Setting) (value : Value) : Prop :=
  ∃ base type, (setting.update value config.written).Readable base type ∧
    (setting.Holds ((setting.update value config.written).loaded base type) value ↔
      (setting = .deviceId ∨ setting = .platformId → value = .integer 0))

section Arriving

variable {config : Config} {setting : Setting} {value : Value}

theorem arrives_of_holds {base : U128} {type : DeviceType}
    (hReadable : (setting.update value config.written).Readable base type)
    (hHolds : setting.Holds ((setting.update value config.written).loaded base type) value)
    (hSetting : ¬ (setting = .deviceId ∨ setting = .platformId)) :
    Arrives config setting value :=
  ⟨base, type, hReadable, iff_of_true hHolds fun hIds => absurd hIds hSetting⟩

/-- Only the texts that the reader takes apart decide what is read. -/
theorem readable_of_same {w : Written} (hRange : w.InRange)
    (hBase : w.baseDifficulty = config.written.baseDifficulty) (hType : w.type = "gpu") :
    w.Readable config.work.baseDifficulty .gpu where
  inRange := hRange
  base x := by
    rw [hBase]
    exact (readable_written config).base x
  type := .inr ⟨hType, rfl⟩

theorem arrives_string {text : String} (h : setting.Accepts (.string text)) :
    Arrives config setting (.string text) := by
  have hRange : config.written.InRange := inRange_written config
  have hBase := (readable_written config).base
  cases setting with
  | bind | path =>
      exact arrives_of_holds
        (readable_of_same ⟨hRange.deviceId, hRange.platformId, hRange.memory, hRange.threads⟩
          rfl rfl) rfl (by decide)
  | baseDifficulty =>
      obtain ⟨number, hNumber⟩ := h
      have hRead (x : U128) :
          Bigint.readHex x text = .ok (Bigint.set (BitVec.ofNat (8 * 16) number)) := by
        rw [Bigint.readHex, hNumber.fromHex x]
      have hHolds : Bigint.HexNumber 16 text
          (Bigint.set (BitVec.ofNat (8 * 16) number)).number.toNat := by
        rwa [hNumber.toNat_number]
      exact arrives_of_holds
        ⟨⟨hRange.deviceId, hRange.platformId, hRange.memory, hRange.threads⟩, hRead,
          .inr ⟨rfl, rfl⟩⟩ ⟨text, rfl, hHolds⟩ (by decide)
  | deviceType =>
      have hSame : (Setting.update .deviceType (.string text) config.written).InRange :=
        ⟨hRange.deviceId, hRange.platformId, hRange.memory, hRange.threads⟩
      rcases h with rfl | rfl
      · exact arrives_of_holds ⟨hSame, hBase, .inl ⟨rfl, rfl⟩⟩ ⟨_, rfl, rfl⟩ (by decide)
      · exact arrives_of_holds ⟨hSame, hBase, .inr ⟨rfl, rfl⟩⟩ ⟨_, rfl, rfl⟩ (by decide)
  | _ => exact absurd h id

theorem arrives_boolean {b : Bool} (h : setting.Accepts (.boolean b)) :
    Arrives config setting (.boolean b) := by
  have hRange : config.written.InRange := inRange_written config
  cases setting with
  | allowPrioritization | allowControl | logToStderr | allowRemote | enable =>
      exact arrives_of_holds
        (readable_of_same ⟨hRange.deviceId, hRange.platformId, hRange.memory, hRange.threads⟩
          rfl rfl) rfl (by decide)
  | _ => exact absurd h id

theorem integer_congr {n m : Nat} (h : n = m) : Value.integer n = Value.integer m := by rw [h]

theorem arrives_integer {n : Int} (h : setting.Accepts (.integer n)) :
    Arrives config setting (.integer n) := by
  have hRange : config.written.InRange := inRange_written config
  cases setting with
  | port | serverThreads | mockWorkGenerationDelay =>
      obtain ⟨m, hFits, rfl⟩ := exists_natCast h
      exact arrives_of_holds
        (readable_of_same ⟨hRange.deviceId, hRange.platformId, hRange.memory, hRange.threads⟩
          rfl rfl) (integer_congr (UInt16.toNat_ofNat_of_lt' hFits).symm) (by decide)
  | requestLimit =>
      obtain ⟨m, hFits, rfl⟩ := exists_natCast h
      exact arrives_of_holds
        (readable_of_same ⟨hRange.deviceId, hRange.platformId, hRange.memory, hRange.threads⟩
          rfl rfl) (integer_congr (UInt32.toNat_ofNat_of_lt' hFits).symm) (by decide)
  | memory =>
      obtain ⟨m, hFits, rfl⟩ := exists_natCast h
      have hSame := UInt64.toNat_ofNat_of_lt' (Nat.lt_trans hFits (by decide))
      exact arrives_of_holds
        (readable_of_same ⟨hRange.deviceId, hRange.platformId, hFits, hRange.threads⟩ rfl rfl)
        ⟨_, rfl, integer_congr hSame.symm⟩ (by decide)
  | deviceThreads =>
      obtain ⟨m, hFits, rfl⟩ := exists_natCast h
      have hSame := UInt64.toNat_ofNat_of_lt' (Nat.lt_trans hFits (by decide))
      exact arrives_of_holds
        (readable_of_same ⟨hRange.deviceId, hRange.platformId, hRange.memory, hFits⟩ rfl rfl)
        ⟨_, rfl, integer_congr hSame.symm⟩ (by decide)
  -- For the ids the reader looks for other keys, and the device keeps its defaults.
  | deviceId =>
      obtain ⟨m, hFits, rfl⟩ := exists_natCast h
      refine ⟨_, _, readable_of_same ⟨hFits, hRange.platformId, hRange.memory, hRange.threads⟩
        rfl rfl, ?_, fun hDefault => ⟨_, rfl, hDefault (.inl rfl)⟩⟩
      rintro ⟨dev, hDev, hValue⟩ -
      obtain rfl := (List.cons.inj hDev).1
      exact hValue
  | platformId =>
      obtain ⟨m, hFits, rfl⟩ := exists_natCast h
      refine ⟨_, _, readable_of_same ⟨hRange.deviceId, hFits, hRange.memory, hRange.threads⟩
        rfl rfl, ?_, fun hDefault => ⟨_, rfl, hDefault (.inr rfl)⟩⟩
      rintro ⟨dev, hDev, hValue⟩ -
      obtain rfl := (List.cons.inj hDev).1
      exact hValue
  | _ => exact absurd h id

theorem arrives_of_accepts (h : setting.Accepts value) : Arrives config setting value := by
  cases value with
  | string text => exact arrives_string h
  | boolean b => exact arrives_boolean h
  | integer n => exact arrives_integer h
  | other => cases setting <;> exact absurd h id

end Arriving

section Loading

variable [Cpptoml]

/-- The exported text without the number signs of its key lines. -/
def uncommentedText (config : Config) : String :=
  String.ofList (unlines (List.zipWith uncomment (Cpptoml.write config.written.tables)
    (getlines (exportDocumented config).toList)))

/-- The same text, line by line what the writer has laid out, with another value for one
key. -/
def editedText (config : Config) (setting : Setting) (value : Value) : String :=
  writtenText (replaceValue setting.table setting.key value none
    (Cpptoml.write config.written.tables))

theorem ofTree_readable {w : Written} {base : U128} {type : DeviceType} (h : w.Readable base type)
    (hardwareConcurrency : UInt32) :
    ofTree (initial hardwareConcurrency) w.tables.document = .ok (w.loaded base type) :=
  ofTree_written h.base h.type (Nat.lt_trans h.inRange.memory (by decide))
    (Nat.lt_trans h.inRange.threads (by decide)) hardwareConcurrency

theorem load_uncommentedText (hardwareConcurrency : UInt32) (config : Config) :
    load hardwareConcurrency (some (uncommentedText config)) [] =
      .ok (config.written.loaded config.work.baseDifficulty .gpu) := by
  have hTables := (inRange_written config).wellFormed
  rw [uncommentedText, uncomment_exportDocumented,
    load_writtenText (Cpptoml.wellFormed_write hTables), Cpptoml.document_write hTables]
  exact ofTree_readable (readable_written config) hardwareConcurrency

theorem load_editedText {setting : Setting} {value : Value} (h : setting.Accepts value)
    (hardwareConcurrency : UInt32) (config : Config) :
    ∃ loaded, load hardwareConcurrency (some (editedText config setting value)) [] = .ok loaded ∧
      (setting.Holds loaded value ↔
        (setting = .deviceId ∨ setting = .platformId → value = .integer 0)) := by
  have hTables := (inRange_written config).wellFormed
  have hLines := Cpptoml.wellFormed_write hTables
  obtain ⟨base, type, hReadable, hHolds⟩ : Arrives config setting value := arrives_of_accepts h
  refine ⟨_, ?_, hHolds⟩
  rw [editedText, load_writtenText (hLines.replaceValue (Setting.isScalar_of_accepts h)),
    document_replaceValue, Cpptoml.document_write hTables, ← Tables.document_replaceValue,
    Setting.replaceValue_tables h]
  exact ofTree_readable hReadable hardwareConcurrency

end Loading

/-- The settings are the keys that are exported. -/
theorem exists_setting_iff (config : Config) (table key : String) :
    (∃ rows, (table, rows) ∈ config.written.tables ∧ key ∈ rows.map Entry.key) ↔
      ∃ setting : Setting, setting.table = table ∧ setting.key = key := by
  constructor
  · rintro ⟨rows, hRows, hKey⟩
    simp only [Written.tables, List.mem_cons, List.not_mem_nil, or_false, Prod.mk.injEq] at hRows
    rcases hRows with ⟨rfl, rfl⟩ | ⟨rfl, rfl⟩ | ⟨rfl, rfl⟩ | ⟨rfl, rfl⟩
    · simp only [serverRows, List.map_cons, List.map_nil, List.mem_cons, List.not_mem_nil,
        or_false] at hKey
      rcases hKey with rfl | rfl | rfl | rfl | rfl | rfl | rfl
      · exact ⟨.bind, rfl, rfl⟩
      · exact ⟨.port, rfl, rfl⟩
      · exact ⟨.serverThreads, rfl, rfl⟩
      · exact ⟨.allowPrioritization, rfl, rfl⟩
      · exact ⟨.allowControl, rfl, rfl⟩
      · exact ⟨.requestLimit, rfl, rfl⟩
      · exact ⟨.logToStderr, rfl, rfl⟩
    · simp only [workRows, List.map_cons, List.map_nil, List.mem_cons, List.not_mem_nil,
        or_false] at hKey
      rcases hKey with rfl | rfl
      · exact ⟨.baseDifficulty, rfl, rfl⟩
      · exact ⟨.mockWorkGenerationDelay, rfl, rfl⟩
    · simp only [deviceRows, List.map_cons, List.map_nil, List.mem_cons, List.not_mem_nil,
        or_false] at hKey
      rcases hKey with rfl | rfl | rfl | rfl | rfl
      · exact ⟨.deviceType, rfl, rfl⟩
      · exact ⟨.deviceId, rfl, rfl⟩
      · exact ⟨.platformId, rfl, rfl⟩
      · exact ⟨.memory, rfl, rfl⟩
      · exact ⟨.deviceThreads, rfl, rfl⟩
    · simp only [adminRows, List.map_cons, List.map_nil, List.mem_cons, List.not_mem_nil,
        or_false] at hKey
      rcases hKey with rfl | rfl | rfl
      · exact ⟨.allowRemote, rfl, rfl⟩
      · exact ⟨.enable, rfl, rfl⟩
      · exact ⟨.path, rfl, rfl⟩
  · rintro ⟨setting, rfl, rfl⟩
    cases setting with
    | bind | port | serverThreads | allowPrioritization | allowControl | requestLimit
    | logToStderr =>
        exact ⟨serverRows _, .head _, List.mem_of_elem_eq_true rfl⟩
    | baseDifficulty | mockWorkGenerationDelay =>
        exact ⟨workRows _ _, .tail _ (.head _), List.mem_of_elem_eq_true rfl⟩
    | deviceType | deviceId | platformId | memory | deviceThreads =>
        exact ⟨deviceRows _ _ _ _ _, .tail _ (.tail _ (.head _)), List.mem_of_elem_eq_true rfl⟩
    | allowRemote | enable | path =>
        exact ⟨adminRows _, .tail _ (.tail _ (.tail _ (.head _))), List.mem_of_elem_eq_true rfl⟩

/-- What is exported is read back, and a value that is set for an exported key arrives in
its setting: for each key but the two that the reader does not look for, and for those if
the value is the default. -/
theorem reads_exported [Cpptoml] (hardwareConcurrency : UInt32) (config : Config) :
    uncommentedText config = writtenText (Cpptoml.write config.written.tables) ∧
    (∃ loaded, load hardwareConcurrency (some (uncommentedText config)) [] = .ok loaded ∧
      loaded.server = config.server ∧ loaded.work = config.work ∧ loaded.admin = config.admin) ∧
    (∀ table key : String,
      (∃ rows, (table, rows) ∈ config.written.tables ∧ key ∈ rows.map Entry.key) ↔
        ∃ setting : Setting, setting.table = table ∧ setting.key = key) ∧
    ∀ (setting : Setting) (value : Value), setting.Accepts value →
      ∃ loaded, load hardwareConcurrency (some (editedText config setting value)) [] =
          .ok loaded ∧
        (setting.Holds loaded value ↔
          (setting = .deviceId ∨ setting = .platformId → value = .integer 0)) := by
  refine ⟨uncomment_exportDocumented config,
    ⟨_, load_uncommentedText hardwareConcurrency config, rfl, rfl, rfl⟩,
    exists_setting_iff config, ?_⟩
  intro setting value hAccepts
  exact load_editedText hAccepts hardwareConcurrency config

/-- Another port, set in the exported defaults. -/
theorem reads_exported_port :
    ∃ loaded, @load lineCpptoml 4
        (some (@editedText lineCpptoml (initial 4) .port (.integer 9000))) [] = .ok loaded ∧
      Setting.port.Holds loaded (.integer 9000) := by
  obtain ⟨-, -, -, hEdited⟩ := @reads_exported lineCpptoml 4 (initial 4)
  obtain ⟨loaded, hLoad, hHolds⟩ := hEdited .port (.integer 9000) (by constructor <;> decide)
  exact ⟨loaded, hLoad, hHolds.mpr (by simp)⟩

/-- The id of the device, set in the exported defaults, stays at its default. -/
theorem ignores_deviceId :
    ¬ ∀ [Cpptoml] (hardwareConcurrency : UInt32) (config : Config) (setting : Setting)
        (value : Value), setting.Accepts value →
      ∃ loaded, load hardwareConcurrency (some (editedText config setting value)) [] =
          .ok loaded ∧ setting.Holds loaded value := by
  intro h
  have hAccepts : Setting.deviceId.Accepts (.integer 5) := by constructor <;> decide
  obtain ⟨loaded, hLoad, hHolds⟩ := @h lineCpptoml 4 (initial 4) .deviceId (.integer 5) hAccepts
  obtain ⟨other, hOther, hIff⟩ := @load_editedText lineCpptoml _ _ hAccepts 4 (initial 4)
  obtain rfl := Except.ok.inj (hLoad.symm.trans hOther)
  exact absurd (hIff.mp hHolds (.inl rfl)) (by decide)

end NanoPowServer.Config
