import OpenDataBuffer.Backoff
import OpenDataBuffer.ProducerState

/-!
# The exporter's configuration

What an operator writes is checked by `Config.Validate`, turned into the
configuration of a producer by `Start`, and completed by `NewProducer`, whose
pools, budget and retry loops have fallbacks of their own.  A configuration that
passes the check goes through all of it unchanged
(`validated_config_takes_effect`).

Two of Go's formatting verbs are parameters, and so is the check of the queue that
`exporterhelper` brings.
-/

namespace OpenDataBuffer

/-- The bytes of a string constant. -/
def goString (s : String) : Bytes := s.toUTF8.data.toList

/-! ## The producer's configuration with its times -/

/-- `buffer.ProducerConfig`, with the fields that only timers read. -/
structure TimedConfig extends ProducerConfig where
  FlushInterval : Duration
  UploadInitialBackoff : Duration
  ManifestInitialBackoff : Duration

def DefaultProducerConfig : TimedConfig where
  DataPathPrefix := goString "ingest"
  ManifestPath := goString "ingest/manifest"
  FlushSizeBytes := 64 * 1024 * 1024
  MaxBufferedInputs := 1000
  BatchCompression := CompressionNone
  Observer := false
  EncodeConcurrency := 1
  UploadConcurrency := 1
  MaxInFlightBatches := DefaultMaxInFlightBatches
  MaxInFlightBytes := DefaultMaxInFlightBytes
  ManifestAppendBatchSize := 1
  UploadMaxAttempts := DefaultUploadMaxAttempts
  ManifestMaxAttempts := DefaultManifestMaxAttempts
  FlushInterval := 100 * Millisecond
  UploadInitialBackoff := DefaultUploadInitialBackoff
  ManifestInitialBackoff := DefaultManifestInitialBackoff

/-- All defaults that `NewProducer` fills in. -/
def TimedConfig.completed (c : TimedConfig) : TimedConfig :=
  { c with
    toProducerConfig := c.toProducerConfig.withDefaults
    UploadInitialBackoff := uploadInitialBackoff c.UploadInitialBackoff
    ManifestInitialBackoff := manifestInitialBackoff c.ManifestInitialBackoff }

/-! ## The operator's configuration -/

structure ObjectStoreConfig where
  /-- The field `Type`. -/
  StoreType : Bytes
  Bucket : Bytes
  Region : Bytes
  Endpoint : Bytes

/-- `Config`, over the type of the queue's configuration. -/
structure Config (Q : Type) where
  ObjectStore : ObjectStoreConfig
  DataPathPrefix : Bytes
  ManifestPath : Bytes
  FlushInterval : Duration
  FlushSizeBytes : Int
  Compression : Bytes
  UploadConcurrency : Int
  EncodeConcurrency : Int
  MaxInFlightBatches : Int
  MaxInFlightBytes : Int
  ManifestAppendBatchSize : Int
  SendingQueue : Option Q
  Timeout : Duration

def objectStoreTypeS3 : Bytes := goString "s3"

def compressionNone : Bytes := goString "none"

def compressionZstd : Bytes := goString "zstd"

/-- `strings.ToLower` as far as the comparison with a word in small letters goes:
no letter outside ASCII becomes one of those in `none` and `zstd`. -/
def toLower (s : Bytes) : Bytes := s.map fun b => if 65 ≤ b ∧ b ≤ 90 then b + 32 else b

inductive ConfigError
  | nilConfig
  | required (field : String)
  | unsupportedType (value : Bytes)
  | notPositive (field : String)
  | belowOne (field : String) (got : Int)
  | sendingQueue (err : String)
  | negativeTimeout (got : Duration)
  | unsupportedCompression (value : Bytes)
  deriving DecidableEq

/-- The verbs `%q` and `%s`. -/
structure Verbs where
  quoted : Bytes → String
  duration : Duration → String

/-- What the error is about, as the operator writes it. -/
def ConfigError.field : ConfigError → String
  | .nilConfig => "config"
  | .required field => field
  | .unsupportedType _ => "object_store.type"
  | .notPositive field => field
  | .belowOne field _ => field
  | .sendingQueue _ => "sending_queue"
  | .negativeTimeout _ => "timeout"
  | .unsupportedCompression _ => "compression"

def ConfigError.text (v : Verbs) : ConfigError → String
  | .nilConfig => "config must not be nil"
  | .required field => field ++ " is required"
  | .unsupportedType value => "unsupported object_store.type " ++ v.quoted value
  | .notPositive field => field ++ " must be greater than zero"
  | .belowOne field got => field ++ " must be at least 1 (got " ++ toString got ++ ")"
  | .sendingQueue err => "sending_queue: " ++ err
  | .negativeTimeout got =>
    "timeout must be >= 0 (got " ++ v.duration got ++ "); 0 inherits exporterhelper default"
  | .unsupportedCompression value => "unsupported compression " ++ v.quoted value

/-- Every error names what it is about. -/
theorem ConfigError.text_names_field (v : Verbs) (err : ConfigError) :
    ∃ before after, err.text v = before ++ (err.field ++ after) := by
  cases err with
  | nilConfig =>
      refine ⟨"", " must not be nil", ?_⟩
      show "config must not be nil" = "" ++ ("config" ++ " must not be nil")
      decide
  | required field => exact ⟨"", " is required", String.empty_append.symm⟩
  | unsupportedType value =>
      have hconst : "unsupported object_store.type " =
          "unsupported " ++ ("object_store.type" ++ " ") := by
        decide
      refine ⟨"unsupported ", " " ++ v.quoted value, ?_⟩
      show "unsupported object_store.type " ++ v.quoted value = _
      rw [hconst, String.append_assoc, String.append_assoc]
      rfl
  | notPositive field => exact ⟨"", " must be greater than zero", String.empty_append.symm⟩
  | belowOne field got =>
      refine ⟨"", " must be at least 1 (got " ++ (toString got ++ ")"), ?_⟩
      show field ++ " must be at least 1 (got " ++ toString got ++ ")" = _
      rw [String.empty_append, String.append_assoc, String.append_assoc]
      rfl
  | sendingQueue err =>
      have hconst : "sending_queue: " = "sending_queue" ++ ": " := by decide
      refine ⟨"", ": " ++ err, ?_⟩
      show "sending_queue: " ++ err = _
      rw [hconst, String.empty_append, String.append_assoc]
      rfl
  | negativeTimeout got =>
      have hconst : "timeout must be >= 0 (got " = "timeout" ++ " must be >= 0 (got " := by decide
      refine ⟨"", " must be >= 0 (got " ++ (v.duration got ++
        "); 0 inherits exporterhelper default"), ?_⟩
      show "timeout must be >= 0 (got " ++ v.duration got ++
        "); 0 inherits exporterhelper default" = _
      rw [hconst, String.empty_append, String.append_assoc, String.append_assoc]
      rfl
  | unsupportedCompression value =>
      have hconst : "unsupported compression " =
          "unsupported " ++ ("compression" ++ " ") := by decide
      refine ⟨"unsupported ", " " ++ v.quoted value, ?_⟩
      show "unsupported compression " ++ v.quoted value = _
      rw [hconst, String.append_assoc, String.append_assoc]
      rfl

/-- `if bad { return err }`. -/
def reject (bad : Bool) (err : ConfigError) : Except ConfigError Unit :=
  if bad then .error err else .ok ()

/-- A check passes exactly if nothing is bad. -/
theorem reject_ok {bad : Bool} {err : ConfigError} : reject bad err = .ok () ↔ bad = false := by
  cases bad <;> simp [reject]

def checkRequired (field : String) (value : Bytes) : Except ConfigError Unit :=
  reject (value = []) (.required field)

def checkAtLeastOne (field : String) (n : Int) : Except ConfigError Unit :=
  reject (n < 1) (.belowOne field n)

section Validate

variable {Q : Type} (validateQueue : Q → Except String Unit)

def checkQueue : Option Q → Except ConfigError Unit
  | none => .ok ()
  | some queue =>
    match validateQueue queue with
    | .ok () => .ok ()
    | .error err => .error (.sendingQueue err)

def Config.Validate : Option (Config Q) → Except ConfigError Unit
  | none => .error .nilConfig
  | some c => do
    checkRequired "object_store.type" c.ObjectStore.StoreType
    reject (c.ObjectStore.StoreType ≠ objectStoreTypeS3) (.unsupportedType c.ObjectStore.StoreType)
    checkRequired "object_store.bucket" c.ObjectStore.Bucket
    checkRequired "object_store.region" c.ObjectStore.Region
    checkRequired "data_path_prefix" c.DataPathPrefix
    checkRequired "manifest_path" c.ManifestPath
    reject (c.FlushInterval ≤ 0) (.notPositive "flush_interval")
    reject (c.FlushSizeBytes ≤ 0) (.notPositive "flush_size_bytes")
    checkAtLeastOne "upload_concurrency" c.UploadConcurrency
    checkAtLeastOne "encode_concurrency" c.EncodeConcurrency
    checkAtLeastOne "max_inflight_batches" c.MaxInFlightBatches
    checkAtLeastOne "max_inflight_bytes" c.MaxInFlightBytes
    checkAtLeastOne "manifest_append_batch_size" c.ManifestAppendBatchSize
    checkQueue validateQueue c.SendingQueue
    reject (c.Timeout < 0) (.negativeTimeout c.Timeout)
    reject (toLower c.Compression ≠ compressionNone ∧ toLower c.Compression ≠ compressionZstd)
      (.unsupportedCompression c.Compression)

/-- A configuration that passes all checks. -/
structure Config.Valid (c : Config Q) : Prop where
  storeType : c.ObjectStore.StoreType = objectStoreTypeS3
  bucket : c.ObjectStore.Bucket ≠ []
  region : c.ObjectStore.Region ≠ []
  dataPathPrefix : c.DataPathPrefix ≠ []
  manifestPath : c.ManifestPath ≠ []
  flushInterval : 0 < c.FlushInterval
  flushSizeBytes : 0 < c.FlushSizeBytes
  uploadConcurrency : 1 ≤ c.UploadConcurrency
  encodeConcurrency : 1 ≤ c.EncodeConcurrency
  maxInFlightBatches : 1 ≤ c.MaxInFlightBatches
  maxInFlightBytes : 1 ≤ c.MaxInFlightBytes
  manifestAppendBatchSize : 1 ≤ c.ManifestAppendBatchSize
  sendingQueue : ∀ queue, c.SendingQueue = some queue → validateQueue queue = .ok ()
  timeout : 0 ≤ c.Timeout
  compression : toLower c.Compression = compressionNone ∨ toLower c.Compression = compressionZstd

/-- The queue is checked if there is one. -/
theorem checkQueue_ok {validateQueue : Q → Except String Unit} {queue : Option Q} :
    checkQueue validateQueue queue = .ok () ↔
      ∀ q, queue = some q → validateQueue q = .ok () := by
  cases queue with
  | none => simp [checkQueue]
  | some q =>
      unfold checkQueue
      cases hq : validateQueue q <;> simp [hq]

/-- Checks pass one after the other. -/
theorem bind_ok_iff {x : Except ConfigError Unit} {rest : Unit → Except ConfigError Unit} :
    (x >>= rest) = .ok () ↔ x = .ok () ∧ rest () = .ok () := by
  cases x <;> simp [bind, Except.bind]

/-- **The check is exact.** -/
theorem Config.validate_ok_iff {validateQueue : Q → Except String Unit} (c : Config Q) :
    Config.Validate validateQueue (some c) = .ok () ↔ c.Valid validateQueue := by
  simp only [Config.Validate, bind_ok_iff, checkRequired, checkAtLeastOne, reject_ok, checkQueue_ok,
    decide_eq_false_iff_not, not_not, not_lt, not_le, Int64.not_le, Int64.not_lt, ne_eq, not_and_or]
  constructor
  · rintro ⟨-, htype, hbucket, hregion, hprefix, hmanifest, hinterval, hsize, hup, henc, hbatches,
      hbytes, happend, hqueue, htimeout, hcompression⟩
    exact ⟨htype, hbucket, hregion, hprefix, hmanifest, hinterval, hsize, hup, henc, hbatches,
      hbytes, happend, hqueue, htimeout, hcompression⟩
  · intro h
    refine ⟨?_, h.storeType, h.bucket, h.region, h.dataPathPrefix, h.manifestPath, h.flushInterval,
      h.flushSizeBytes, h.uploadConcurrency, h.encodeConcurrency, h.maxInFlightBatches,
      h.maxInFlightBytes, h.manifestAppendBatchSize, h.sendingQueue, h.timeout, h.compression⟩
    rw [h.storeType]
    decide

end Validate

/-! ## From the operator to the producer -/

def compressionTypeFromString (value : Bytes) : Except ConfigError CompressionType :=
  if toLower value = compressionNone then .ok CompressionNone
  else if toLower value = compressionZstd then .ok CompressionZstd
  else .error (.unsupportedCompression value)

section Start

variable {Q : Type} {validateQueue : Q → Except String Unit}

/-- The `producerConfig` of `Start`. -/
def Config.producerConfig (c : Config Q) (compression : CompressionType) : TimedConfig :=
  { DefaultProducerConfig with
    DataPathPrefix := c.DataPathPrefix
    ManifestPath := c.ManifestPath
    FlushInterval := c.FlushInterval
    FlushSizeBytes := c.FlushSizeBytes
    UploadConcurrency := c.UploadConcurrency
    EncodeConcurrency := c.EncodeConcurrency
    MaxInFlightBatches := c.MaxInFlightBatches
    MaxInFlightBytes := c.MaxInFlightBytes
    ManifestAppendBatchSize := c.ManifestAppendBatchSize
    BatchCompression := compression
    Observer := true }

/-- `createDefaultConfig`, with the queue of `exporterhelper`. -/
def createDefaultConfig (queue : Q) : Config Q where
  ObjectStore := ⟨objectStoreTypeS3, [], [], []⟩
  DataPathPrefix := goString "ingest/otel/metrics/data"
  ManifestPath := goString "ingest/otel/metrics/manifest"
  FlushInterval := 10 * Second
  FlushSizeBytes := 1024 * 1024
  Compression := compressionZstd
  UploadConcurrency := 1
  EncodeConcurrency := 1
  MaxInFlightBatches := DefaultMaxInFlightBatches
  MaxInFlightBytes := DefaultMaxInFlightBytes
  ManifestAppendBatchSize := 1
  SendingQueue := some queue
  Timeout := 0

/-- A checked configuration names one of the two compressions. -/
theorem compressionTypeFromString_ok {value : Bytes}
    (h : toLower value = compressionNone ∨ toLower value = compressionZstd) :
    ∃ compression, compressionTypeFromString value = .ok compression ∧
      (compression = CompressionNone ∨ compression = CompressionZstd) := by
  have hne : compressionZstd ≠ compressionNone := by decide
  unfold compressionTypeFromString
  rcases h with hnone | hzstd
  · exact ⟨_, if_pos hnone, Or.inl rfl⟩
  · rw [if_neg (fun h => hne (hzstd.symm.trans h))]
    exact ⟨_, if_pos hzstd, Or.inr rfl⟩

/-- A bound of at least one is left as it is. -/
theorem atLeastOne_of_le {n : Int} (h : 1 ≤ n) : (atLeastOne n : Int) = n := by
  rw [atLeastOne, if_neg (by omega)]
  omega

/-- A configuration with bounds of at least one is left as it is. -/
theorem ProducerConfig.withDefaults_of_le {c : ProducerConfig} (hbytes : 1 ≤ c.MaxInFlightBytes)
    (hbatches : 1 ≤ c.MaxInFlightBatches) (hupload : 1 ≤ c.UploadMaxAttempts)
    (hmanifest : 1 ≤ c.ManifestMaxAttempts) : c.withDefaults = c := by
  unfold ProducerConfig.withDefaults
  rw [if_neg (by omega), if_neg (by omega), if_neg (by omega), if_neg (by omega)]

/-- The producer and its timers run with what the operator wrote: its pools, its
committer, its budget and the channel to the committer have the sizes of the
configuration.  What the operator cannot write has its default. -/
structure Config.Effective (c : Config Q) (timers : TimedConfig) (p : Producer) : Prop where
  dataPathPrefix : p.config.DataPathPrefix = c.DataPathPrefix
  manifestPath : p.config.ManifestPath = c.ManifestPath
  flushInterval : timers.FlushInterval = c.FlushInterval
  flushSizeBytes : p.config.FlushSizeBytes = c.FlushSizeBytes
  compression : compressionTypeFromString c.Compression = .ok p.config.BatchCompression
  encoders : (p.encodeConcurrency : Int) = c.EncodeConcurrency
  uploaders : (p.uploadConcurrency : Int) = c.UploadConcurrency
  group : (p.batchSize : Int) = c.ManifestAppendBatchSize
  completions : (p.completionBuf : Int) = c.MaxInFlightBatches
  batches : p.config.MaxInFlightBatches = c.MaxInFlightBatches
  bytes : p.config.MaxInFlightBytes = c.MaxInFlightBytes
  observed : p.config.Observer = true
  buffered : p.config.MaxBufferedInputs = DefaultProducerConfig.MaxBufferedInputs
  uploadAttempts : (p.uploadMaxAttempts : Int) = DefaultUploadMaxAttempts
  manifestAttempts : (p.manifestMaxAttempts : Int) = DefaultManifestMaxAttempts
  uploadBackoff : timers.UploadInitialBackoff = DefaultUploadInitialBackoff
  manifestBackoff : timers.ManifestInitialBackoff = DefaultManifestInitialBackoff

/-- What the operator wrote is what the producer runs with. -/
theorem Config.Valid.effective {c : Config Q} (h : c.Valid validateQueue)
    {compression : CompressionType}
    (hparse : compressionTypeFromString c.Compression = .ok compression)
    (runID : Bytes) (zstd : Zstd) :
    c.Effective (c.producerConfig compression).completed
      (Producer.new (c.producerConfig compression).toProducerConfig runID zstd) where
  dataPathPrefix := rfl
  manifestPath := rfl
  flushInterval := rfl
  flushSizeBytes := rfl
  compression := hparse
  encoders := atLeastOne_of_le h.encodeConcurrency
  uploaders := atLeastOne_of_le h.uploadConcurrency
  group := atLeastOne_of_le h.manifestAppendBatchSize
  completions := by
    show (atLeastOne (if c.MaxInFlightBatches < 1 then _ else c.MaxInFlightBatches) : Int) = _
    rw [if_neg (Int.not_lt.mpr h.maxInFlightBatches)]
    exact atLeastOne_of_le h.maxInFlightBatches
  batches := if_neg (Int.not_lt.mpr h.maxInFlightBatches)
  bytes := if_neg (Int.not_lt.mpr h.maxInFlightBytes)
  observed := rfl
  buffered := rfl
  uploadAttempts := rfl
  manifestAttempts := rfl
  uploadBackoff := rfl
  manifestBackoff := rfl

/-- A factory configuration with a bucket and a region. -/
def sampleExporterConfig : Config Unit :=
  { createDefaultConfig () with
    ObjectStore := ⟨objectStoreTypeS3, goString "telemetry", goString "us-west-2", []⟩ }

/-- The factory's defaults pass the check once a bucket and a region are set. -/
theorem createDefaultConfig_valid {queue : Q} {bucket region endpoint : Bytes}
    (hqueue : validateQueue queue = .ok ()) (hbucket : bucket ≠ []) (hregion : region ≠ []) :
    Config.Valid validateQueue { createDefaultConfig queue with
      ObjectStore := ⟨objectStoreTypeS3, bucket, region, endpoint⟩ } where
  storeType := rfl
  bucket := hbucket
  region := hregion
  dataPathPrefix := (by decide : goString "ingest/otel/metrics/data" ≠ [])
  manifestPath := (by decide : goString "ingest/otel/metrics/manifest" ≠ [])
  flushInterval := (by decide : 0 < 10 * Second)
  flushSizeBytes := (by decide : (0 : Int) < 1024 * 1024)
  uploadConcurrency := Int.le_refl 1
  encodeConcurrency := Int.le_refl 1
  maxInFlightBatches := (by decide : 1 ≤ DefaultMaxInFlightBatches)
  maxInFlightBytes := (by decide : 1 ≤ DefaultMaxInFlightBytes)
  manifestAppendBatchSize := Int.le_refl 1
  sendingQueue := by
    intro q hq
    cases hq
    exact hqueue
  timeout := Int64.le_refl 0
  compression := Or.inr (by decide : toLower compressionZstd = compressionZstd)

/-- **What passes the check takes effect.**  For a configuration that `Validate`
accepts, `Start` gets past its own parse of the compression, the defaults of
`NewProducer` change nothing, and none of the fallbacks further down does either: the
producer has every value that the operator wrote, and the defaults of the rest. -/
theorem validated_config_takes_effect (c : Config Q) (runID : Bytes) (zstd : Zstd)
    (h : Config.Validate validateQueue (some c) = .ok ()) :
    ∃ compression, compressionTypeFromString c.Compression = .ok compression ∧
      (compression = CompressionNone ∨ compression = CompressionZstd) ∧
      (c.producerConfig compression).completed = c.producerConfig compression ∧
      0 < c.FlushInterval ∧
      c.Effective (c.producerConfig compression).completed
        (Producer.new (c.producerConfig compression).toProducerConfig runID zstd) := by
  have hvalid := (Config.validate_ok_iff c).mp h
  obtain ⟨compression, hparse, hcompression⟩ := compressionTypeFromString_ok hvalid.compression
  refine ⟨compression, hparse, hcompression, ?_, hvalid.flushInterval,
    hvalid.effective hparse runID zstd⟩
  have hsame : (c.producerConfig compression).toProducerConfig.withDefaults =
      (c.producerConfig compression).toProducerConfig :=
    ProducerConfig.withDefaults_of_le hvalid.maxInFlightBytes hvalid.maxInFlightBatches
      (by decide : 1 ≤ DefaultUploadMaxAttempts) (by decide : 1 ≤ DefaultManifestMaxAttempts)
  rw [TimedConfig.completed, hsame]
  rfl

/-- The default configuration with a bucket and a region is valid. -/
theorem validated_config_takes_effect_default :
    ∃ compression, compressionTypeFromString sampleExporterConfig.Compression = .ok compression ∧
      sampleExporterConfig.Effective (sampleExporterConfig.producerConfig compression).completed
        (Producer.new (sampleExporterConfig.producerConfig compression).toProducerConfig [114]
          sampleZstd) := by
  have hcheck : Config.Validate (fun _ => .ok ()) (some sampleExporterConfig) = .ok () :=
    (Config.validate_ok_iff _).mpr (createDefaultConfig_valid rfl (by decide) (by decide))
  obtain ⟨compression, hparse, -, -, -, heffective⟩ :=
    validated_config_takes_effect sampleExporterConfig [114] sampleZstd hcheck
  exact ⟨compression, hparse, heffective⟩

end Start

/-- Objects lie under the prefix: a manifest path that does not is not one of
their names. -/
theorem Producer.location_ne_of_not_under {p : Producer} {path : Bytes}
    (h : ¬ (p.config.DataPathPrefix ++ [47]) <+: path) (k : Nat) : p.location k ≠ path := by
  intro hlocation
  refine h ⟨p.runID ++ 47 :: hex016 k, ?_⟩
  rw [← hlocation, Producer.location, List.append_assoc]
  rfl

end OpenDataBuffer
