import Instro.EthernetIp.Session
import Instro.EthernetIp.Write
import Instro.Library.Collect

/-!
# Batched polling

One polling cycle reads the polled tags in one batch. It publishes what individual reads would, as
long as no polled tag holds a string: the binding raises on the first string of a batch and the
values of the other tags are lost with it.
-/

namespace Instro.EthernetIp

open Instro.Library

/-! ## The session -/

section Session

variable {backend : Backend} {session : ExplicitSession}

/-- There is a client, or a connect gives one. -/
def ExplicitSession.Reaches (backend : Backend) (session : ExplicitSession) : Prop :=
  session.connected = true ∨ backend.connect session.addr session.routePathSlots = .ok ()

theorem reconnectIfNeeded_of_reaches (h : session.Reaches backend) :
    ∃ session', session.reconnectIfNeeded backend = (.ok (), session') ∧
      session'.addr = session.addr := by
  unfold ExplicitSession.reconnectIfNeeded
  by_cases hconnected : session.connected = true
  · rw [if_pos hconnected]
    exact ⟨session, rfl, rfl⟩
  · rw [if_neg hconnected, h.resolve_left hconnected]
    exact ⟨_, rfl, rfl⟩

theorem reconnectIfNeeded_of_not_reaches (h : ¬ session.Reaches backend) :
    ∃ e session', session.reconnectIfNeeded backend = (.error e, session') := by
  unfold ExplicitSession.Reaches at h
  push Not at h
  unfold ExplicitSession.reconnectIfNeeded
  rw [if_neg h.1]
  cases hconnect : backend.connect session.addr session.routePathSlots with
  | ok u => exact absurd hconnect h.2
  | error source => exact ⟨_, _, rfl⟩

/-- An operation succeeds when the backend is reached and answers it. -/
theorem operate_eq_ok {α : Type} {call : BackendCall} {answer : Except BackendError α}
    {wrap : BackendError → Error} {a : α} :
    (session.operate backend call answer wrap).1 = .ok a ↔
      session.Reaches backend ∧ answer = .ok a := by
  unfold ExplicitSession.operate
  by_cases hreach : session.Reaches backend
  · obtain ⟨session', hrun, -⟩ := reconnectIfNeeded_of_reaches hreach
    rw [hrun, and_iff_right hreach]
    cases answer with
    | ok b =>
      constructor
      · intro h
        exact congrArg Except.ok (Except.ok.inj h)
      · intro h
        exact congrArg Except.ok (Except.ok.inj h)
    | error source => exact ⟨nofun, nofun⟩
  · obtain ⟨e, session', hrun⟩ := reconnectIfNeeded_of_not_reaches hreach
    rw [hrun]
    exact ⟨nofun, fun h => absurd h.1 hreach⟩

theorem readTag_eq_ok {tagName : String} {value : Value} :
    (session.readTag backend tagName).1 = .ok value ↔
      session.Reaches backend ∧
        ∃ raw, backend.readTag tagName = .ok raw ∧ Value.ofBackend raw = value := by
  unfold ExplicitSession.readTag ExplicitSession.readTagRaw
  simp only [map_eq_ok, operate_eq_ok]
  tauto

theorem readTags_eq_ok {tagNames : List String} {values : List (String × Except Error Value)}
    (h : (session.readTags backend tagNames).1 = .ok values) :
    session.Reaches backend ∧ ∃ addr batch, backend.readTagsBatch tagNames = .ok batch ∧
      values = batch.map (ExplicitSession.batchItem addr) := by
  unfold ExplicitSession.readTags at h
  generalize hop : session.operate backend (.readTagsBatch tagNames)
    (backend.readTagsBatch tagNames) (.batchRead session.addr) = outcome at h
  obtain ⟨result, session'⟩ := outcome
  cases result with
  | error e => cases h
  | ok batch =>
    obtain ⟨hreach, hbatch⟩ := operate_eq_ok.mp (congrArg Prod.fst hop)
    exact ⟨hreach, session'.addr, batch, hbatch, (Except.ok.inj h).symm⟩

end Session

/-! ## The binding -/

/-- What a PLC answers for each tag. -/
abbrev PlcMemory := String → Except BatchReadError BackendValue

/-- The backend reads a PLC memory. A batch that is dispatched has one entry for each requested tag,
in order, and a tag reads the same alone as in a batch. -/
structure Backend.Serves (backend : Backend) (memory : PlcMemory) : Prop where
  readTag : ∀ name value, backend.readTag name = .ok value ↔ memory name = .ok value
  readTagsBatch : ∀ names batch, backend.readTagsBatch names = .ok batch →
    batch = names.map fun name => (name, memory name)

/-- The tag holds a string. -/
def HoldsString (memory : PlcMemory) (tag : TagDef) : Prop :=
  ∃ s, memory tag.tagName = .ok (.scalar (.string s))

/-- The tag holds a value of the kind it is configured with. -/
def HoldsKind (memory : PlcMemory) (tag : TagDef) : Prop :=
  ∃ value plcValue, memory tag.tagName = .ok value ∧
    rustValueToPy (.ofBackend value) = .ok plcValue ∧ plcValue.kind = tag.expectedPlcKind

section Binding

variable {backend : Backend} {memory : PlcMemory} {session : ExplicitSession} {name addr : String}

/-- The tag as Python reads it, in a batch from `addr`. -/
def pyRead (addr : String) (memory : PlcMemory) (name : String) : Except NativeError PlcValue :=
  match memory name with
  | .ok value => toPy (.ofBackend value)
  | .error source => .error (.batchItem addr name source)

theorem rustValueToPy_eq_ok {value : Value} :
    (∃ plcValue, rustValueToPy value = .ok plcValue) ↔ value.isString = false := by
  unfold rustValueToPy
  split_ifs with h
  · exact ⟨nofun, fun h' => absurd h (Bool.eq_false_iff.mp h')⟩
  · exact iff_of_true ⟨_, rfl⟩ (Bool.eq_false_iff.mpr h)

theorem isString_ofBackend {value : BackendValue} :
    (Value.ofBackend value).isString = true ↔ ∃ s, value = .scalar (.string s) := by
  constructor
  · intro h
    cases value with
    | udt u => cases h
    | scalar v =>
      cases v with
      | string s => exact ⟨s, rfl⟩
      | _ => cases h
  · rintro ⟨s, rfl⟩
    rfl

/-- An item that is not a string passes the binding, whether it was read or not. -/
theorem toPyItem_batchItem (h : ∀ s, memory name ≠ .ok (.scalar (.string s))) :
    EtherNetIpSession.toPyItem (ExplicitSession.batchItem addr (name, memory name)) =
      .ok (name, pyRead addr memory name) := by
  unfold EtherNetIpSession.toPyItem ExplicitSession.batchItem pyRead
  cases hmem : memory name with
  | error source => rfl
  | ok value =>
    have hstring : (Value.ofBackend value).isString = false := by
      rw [Bool.eq_false_iff]
      intro hstring
      obtain ⟨s, rfl⟩ := isString_ofBackend.mp hstring
      exact h s hmem
    obtain ⟨plcValue, hplc⟩ := rustValueToPy_eq_ok.mpr hstring
    have hpy : toPy (.ofBackend value) = .ok plcValue := raiseAs_eq_ok.mpr hplc
    show (toPy (.ofBackend value) >>= fun plcValue => pure (name, Except.ok plcValue)) =
      .ok (name, toPy (.ofBackend value))
    rw [hpy]
    rfl

/-- A string fails the binding. -/
theorem toPyItem_of_string {s : String} (h : memory name = .ok (.scalar (.string s))) :
    EtherNetIpSession.toPyItem (ExplicitSession.batchItem addr (name, memory name)) =
      .error .stringValue := by
  unfold EtherNetIpSession.toPyItem ExplicitSession.batchItem
  rw [h]
  rfl

end Binding

/-! ## Decoding -/

section Decoding

variable {memory : PlcMemory} {conn : Connection} {tag : TagDef} {plcValue : PlcValue}

theorem decodePlcValue_of_kind (hloaded : conn.nativeLoaded = true)
    (hkind : plcValue.kind = tag.expectedPlcKind) :
    ∃ payload, decodePlcValue conn plcValue tag = .ok payload := by
  have hvalid : validateReadKind conn plcValue tag = .ok () := by
    unfold validateReadKind requireNative
    rw [ensure_pos hloaded]
    exact ensure_pos hkind
  have hstream : validateStreamableRead tag plcValue.kind = .ok () := by
    refine ensure_pos ?_
    cases hdt : tag.dataType <;> simp [DataType.isStreamable, DataType.isFloat, integerRanges]
  unfold decodePlcValue
  rw [hvalid]
  show ∃ payload, (validateStreamableRead tag plcValue.kind >>= fun _ => _) = _
  rw [hstream]
  by_cases hbool : tag.dataType = .bool
  · -- the payload of a value of kind `bool` is a boolean
    have hpayload : ∃ b, plcValue.payload = .value (.bool b) := by
      unfold TagDef.expectedPlcKind at hkind
      rw [hbool] at hkind
      unfold PlcValue.kind at hkind
      split at hkind <;> first | exact ⟨_, rfl⟩ | cases hkind
    obtain ⟨b, hb⟩ := hpayload
    refine ⟨.value (.num (.int b.toNat)), ?_⟩
    show (if tag.dataType = .bool then _ else _) = _
    rw [if_pos hbool, hb]
    rfl
  · refine ⟨plcValue.payload, ?_⟩
    show (if tag.dataType = .bool then _ else _) = _
    rw [if_neg hbool]
    rfl

theorem decodePlcValue_of_ne (hloaded : conn.nativeLoaded = true)
    (hkind : plcValue.kind ≠ tag.expectedPlcKind) :
    decodePlcValue conn plcValue tag =
      .error (.kindMismatch tag.tagAlias tag.expectedPlcKind plcValue.kind) := by
  have hvalid : validateReadKind conn plcValue tag =
      .error (.kindMismatch tag.tagAlias tag.expectedPlcKind plcValue.kind) := by
    unfold validateReadKind requireNative
    rw [ensure_pos hloaded]
    exact ensure_neg hkind
  unfold decodePlcValue
  rw [hvalid]
  rfl

/-- What is published of a tag. -/
def published (conn : Connection) (memory : PlcMemory) (tag : TagDef) : Option Payload :=
  (memory tag.tagName).toOption.bind fun value =>
    (toPy (.ofBackend value)).toOption.bind fun plcValue =>
      (decodePlcValue conn plcValue tag).toOption

theorem published_eq_some {payload : Payload} :
    published conn memory tag = some payload ↔
      ∃ value, memory tag.tagName = .ok value ∧ ∃ plcValue,
        toPy (.ofBackend value) = .ok plcValue ∧
          decodePlcValue conn plcValue tag = .ok payload := by
  unfold published
  simp only [Option.bind_eq_some_iff, toOption_eq_some]

/-- A tag is published when it holds its kind. -/
theorem published_isSome_iff (hloaded : conn.nativeLoaded = true) :
    (∃ payload, published conn memory tag = some payload) ↔ HoldsKind memory tag := by
  simp only [published_eq_some]
  constructor
  · rintro ⟨payload, value, hvalue, plcValue, hpy, hdecode⟩
    refine ⟨value, plcValue, hvalue, raiseAs_eq_ok.mp hpy, ?_⟩
    by_contra hkind
    rw [decodePlcValue_of_ne hloaded hkind] at hdecode
    cases hdecode
  · rintro ⟨value, plcValue, hvalue, hpy, hkind⟩
    obtain ⟨payload, hdecode⟩ := decodePlcValue_of_kind hloaded hkind
    exact ⟨payload, value, hvalue, plcValue, raiseAs_eq_ok.mpr hpy, hdecode⟩

end Decoding

/-! ## The configuration -/

section Config

variable {dev : EtherNetIPDevice}

theorem unique_of_validate (h : dev.config.validate = .ok ()) :
    (dev.config.tags.map (·.tagAlias)).Nodup ∧ (dev.config.tags.map (·.tagName)).Nodup := by
  obtain ⟨⟨⟩, -, h⟩ := bind_eq_ok.mp h
  obtain ⟨⟨⟩, -, h⟩ := bind_eq_ok.mp h
  obtain ⟨⟨⟩, haliases, hnames⟩ := bind_eq_ok.mp h
  exact ⟨ensure_eq_ok.mp haliases, ensure_eq_ok.mp hnames⟩

/-- The last element with a key is the only one with it, where keys are unique. -/
theorem find_reverse_of_mem {α : Type} {key : α → String} {xs : List α}
    (hkeys : (xs.map key).Nodup) {x : α} (hx : x ∈ xs) :
    (xs.reverse.find? fun y => key y = key x) = some x := by
  cases hfind : xs.reverse.find? fun y => key y = key x with
  | none =>
    have hnot := List.find?_eq_none.mp hfind x (List.mem_reverse.mpr hx)
    exact absurd (by simp) hnot
  | some y =>
    have hy := List.mem_reverse.mp (List.mem_of_find?_eq_some hfind)
    have hkey : key y = key x := by simpa using List.find?_some hfind
    exact congrArg some (List.inj_on_of_nodup_map hkeys hy hx hkey)

theorem getTag_of_mem (h : dev.config.validate = .ok ()) {tag : TagDef}
    (htag : tag ∈ dev.config.tags) : dev.getTag tag.tagAlias = .ok tag := by
  unfold EtherNetIPDevice.getTag EtherNetIPConfig.getTag
  rw [find_reverse_of_mem (unique_of_validate h).1 htag]

theorem tagByName_of_mem (h : dev.config.validate = .ok ()) {tag : TagDef}
    (htag : tag ∈ dev.config.polledTags) : dev.tagByName tag.tagName = .ok tag := by
  have hsub : dev.config.polledTags.Sublist dev.config.tags := List.filter_sublist
  have hnames := (unique_of_validate h).2.sublist (hsub.map (·.tagName))
  unfold EtherNetIPDevice.tagByName
  rw [find_reverse_of_mem hnames htag]

/-- No two polled tags share a channel. -/
theorem channel_nodup (h : dev.config.validate = .ok ()) :
    (dev.config.polledTags.map dev.channel).Nodup := by
  have hsub : dev.config.polledTags.Sublist dev.config.tags := List.filter_sublist
  have haliases := (unique_of_validate h).1.sublist (hsub.map (·.tagAlias))
  have hchannel : dev.config.polledTags.map dev.channel =
      (dev.config.polledTags.map (·.tagAlias)).map (dev.name ++ "." ++ ·) := by
    rw [List.map_map]
    rfl
  rw [hchannel]
  refine haliases.map ?_
  intro a b hab
  simpa using hab

end Config

/-! ## The cycle -/

/-- The channels that one individual read of the tag publishes. -/
def Reads (dev : EtherNetIPDevice) (conn : Connection) (tag : TagDef) (channel : String)
    (payload : Payload) : Prop :=
  ∃ channels, (dev.readTag conn tag.tagAlias).result = .ok channels ∧
    channels.lookup channel = some payload

/-- The channels that one polling cycle publishes. -/
def Publishes (dev : EtherNetIPDevice) (conn : Connection) (channel : String) (payload : Payload) :
    Prop :=
  ∃ channels, (dev.pollBatchedTags conn).result = .ok (some channels) ∧
    channels.lookup channel = some payload

/-- A cycle publishes what individual reads of the polled tags would. -/
def PollsLikeReads (dev : EtherNetIPDevice) (conn : Connection) : Prop :=
  ∀ channel payload, Publishes dev conn channel payload ↔
    ∃ tag ∈ dev.config.polledTags, Reads dev conn tag channel payload

section Cycle

variable {dev : EtherNetIPDevice} {conn : Connection} {backend : Backend} {memory : PlcMemory}
  {session : ExplicitSession} {addr : String}

theorem loaded_of_up {client : Client} (hup : conn.IsUp client) : conn.nativeLoaded = true :=
  conn.loaded_of_client (by rw [hup.2]; rfl)

/-- Collecting one item: an item that failed or does not decode is left out. -/
theorem collect_eq (hconfig : dev.config.validate = .ok ()) (hloaded : conn.nativeLoaded = true)
    (d : Channels) {tag : TagDef} (htag : tag ∈ dev.config.polledTags) :
    dev.collect conn d (tag.tagName, pyRead addr memory tag.tagName) =
      .ok (collectOne dev.channel (published conn memory) d tag) := by
  unfold EtherNetIPDevice.collect collectOne published pyRead
  rw [tagByName_of_mem hconfig htag]
  cases memory tag.tagName with
  | error source => rfl
  | ok value =>
    cases hpy : toPy (.ofBackend value) with
    | error e => simp [hpy, Except.toOption, bind, Except.bind, pure, Except.pure]
    | ok plcValue =>
      by_cases hkind : plcValue.kind = tag.expectedPlcKind
      · obtain ⟨payload, hpayload⟩ := decodePlcValue_of_kind hloaded hkind
        simp [hpy, hpayload, Except.toOption, bind, Except.bind, pure, Except.pure]
      · simp [hpy, decodePlcValue_of_ne hloaded hkind, Except.toOption, bind, Except.bind, pure,
          Except.pure, DeviceError.isTypeOrValueError]

/-- What the client answers to the batch. -/
def batchAnswer (backend : Backend) (session : ExplicitSession) (tags : List TagDef) :
    Except NativeError (List (String × Except NativeError PlcValue)) :=
  EtherNetIpSession.readTags backend ⟨some session⟩ (tags.map (·.tagName))

theorem pollBatchedTags_result (hup : conn.IsUp (EtherNetIpSession.client backend ⟨some session⟩))
    (hpolled : dev.config.polledTags ≠ []) :
    (dev.pollBatchedTags conn).result = (do
      let results ← raiseAs .client (batchAnswer backend session dev.config.polledTags)
      let channelData ← results.foldlM (dev.collect conn) ∅
      return if channelData.entries = [] then none else some channelData) := by
  unfold EtherNetIPDevice.pollBatchedTags readTagsRaw
  rw [if_neg hpolled, eipOp_of_up hup, Exchange.result_bind]
  refine congrArg (_ >>= ·) (funext fun results => ?_)
  rw [Exchange.result_bind]
  refine congrArg (_ >>= ·) (funext fun channelData => ?_)
  split_ifs
  · rfl
  · rfl

variable (hserves : backend.Serves memory)
include hserves

/-- A dispatched batch has the items of the polled tags. -/
theorem batchAnswer_eq {tags : List TagDef} {values : List (String × Except Error Value)}
    (hdispatch : (session.readTags backend (tags.map (·.tagName))).1 = .ok values) :
    session.Reaches backend ∧ ∃ addr, batchAnswer backend session tags =
      tags.mapM fun tag => EtherNetIpSession.toPyItem
        (ExplicitSession.batchItem addr (tag.tagName, memory tag.tagName)) := by
  obtain ⟨hreach, addr, batch, hbatch, hvalues⟩ := readTags_eq_ok hdispatch
  refine ⟨hreach, addr, ?_⟩
  unfold batchAnswer EtherNetIpSession.readTags EtherNetIpSession.detach
  show (raiseAs mapErrorWithPy (session.readTags backend (tags.map (·.tagName))).1 >>= fun values =>
    values.mapM EtherNetIpSession.toPyItem) = _
  rw [hdispatch, hvalues, hserves.readTagsBatch _ _ hbatch]
  rw [List.map_map, List.map_map]
  exact List.mapM_map

/-- Where no polled tag holds a string, the cycle collects every item on its own. -/
theorem pollBatchedTags_result_of_no_string (hconfig : dev.config.validate = .ok ())
    (hup : conn.IsUp (EtherNetIpSession.client backend ⟨some session⟩))
    {values : List (String × Except Error Value)}
    (hdispatch : (session.readTags backend (dev.config.polledTags.map (·.tagName))).1 = .ok values)
    (hstrings : ∀ tag ∈ dev.config.polledTags, ¬ HoldsString memory tag)
    (hpolled : dev.config.polledTags ≠ []) :
    (dev.pollBatchedTags conn).result = .ok
      (if (dev.config.polledTags.foldl (collectOne dev.channel (published conn memory))
          ∅).entries = [] then none
        else some (dev.config.polledTags.foldl
          (collectOne dev.channel (published conn memory)) ∅)) := by
  obtain ⟨-, addr, hanswer⟩ := batchAnswer_eq hserves hdispatch
  have hitems : batchAnswer backend session dev.config.polledTags =
      .ok (dev.config.polledTags.map fun tag =>
        (tag.tagName, pyRead addr memory tag.tagName)) := by
    rw [hanswer]
    refine mapM_eq_ok_map fun tag htag => toPyItem_batchItem fun s hs => ?_
    exact hstrings tag htag ⟨s, hs⟩
  have hfold : (dev.config.polledTags.map fun tag =>
      (tag.tagName, pyRead addr memory tag.tagName)).foldlM (dev.collect conn) ∅ =
        .ok (dev.config.polledTags.foldl (collectOne dev.channel (published conn memory)) ∅) :=
    foldlM_map_eq_ok (fun d _ htag => collect_eq hconfig (loaded_of_up hup) d htag) ∅
  rw [pollBatchedTags_result hup hpolled, hitems]
  show (List.foldlM (dev.collect conn) ∅ _ >>= _) = _
  rw [hfold]
  rfl

/-- **Isolation.** Where no polled tag holds a string, the cycle publishes every tag on its own. -/
theorem publishes_iff (hconfig : dev.config.validate = .ok ())
    (hup : conn.IsUp (EtherNetIpSession.client backend ⟨some session⟩))
    {values : List (String × Except Error Value)}
    (hdispatch : (session.readTags backend (dev.config.polledTags.map (·.tagName))).1 = .ok values)
    (hstrings : ∀ tag ∈ dev.config.polledTags, ¬ HoldsString memory tag)
    {channel : String} {payload : Payload} :
    Publishes dev conn channel payload ↔
      ∃ tag ∈ dev.config.polledTags, dev.channel tag = channel ∧
        published conn memory tag = some payload := by
  by_cases hpolled : dev.config.polledTags = []
  · have hnone : (dev.pollBatchedTags conn).result = .ok none := by
      unfold EtherNetIPDevice.pollBatchedTags
      rw [if_pos hpolled]
      rfl
    unfold Publishes
    rw [hnone, hpolled]
    simp
  · rw [← lookup_foldl_collectOne (channel_nodup hconfig)]
    unfold Publishes
    rw [pollBatchedTags_result_of_no_string hserves hconfig hup hdispatch hstrings hpolled]
    split_ifs with hempty
    · have hlookup : (dev.config.polledTags.foldl
          (collectOne dev.channel (published conn memory)) ∅).lookup channel = none := by
        rw [show dev.config.polledTags.foldl
          (collectOne dev.channel (published conn memory)) ∅ = ∅ from AList.ext hempty]
        rfl
      rw [hlookup]
      simp
    · simp

/-- One string among the polled tags fails the whole cycle. -/
theorem not_publishes_of_string
    (hup : conn.IsUp (EtherNetIpSession.client backend ⟨some session⟩))
    {values : List (String × Except Error Value)}
    (hdispatch : (session.readTags backend (dev.config.polledTags.map (·.tagName))).1 = .ok values)
    {tag : TagDef} (htag : tag ∈ dev.config.polledTags) (hstring : HoldsString memory tag)
    (channel : String) (payload : Payload) : ¬ Publishes dev conn channel payload := by
  rintro ⟨channels, hresult, -⟩
  have hpolled : dev.config.polledTags ≠ [] := List.ne_nil_of_mem htag
  rw [pollBatchedTags_result hup hpolled] at hresult
  obtain ⟨results, hresults, -⟩ := bind_eq_ok.mp hresult
  obtain ⟨-, addr, hanswer⟩ := batchAnswer_eq hserves hdispatch
  rw [raiseAs_eq_ok, hanswer] at hresults
  obtain ⟨item, hitem⟩ := step_of_mapM_eq_ok hresults tag htag
  obtain ⟨s, hs⟩ := hstring
  rw [toPyItem_of_string hs] at hitem
  cases hitem

/-- What the client answers to the read of one tag. -/
theorem client_readTag_eq_ok_iff (hreach : session.Reaches backend) {tagName : String}
    {plcValue : PlcValue} :
    EtherNetIpSession.readTag backend ⟨some session⟩ tagName = .ok plcValue ↔
      ∃ value, memory tagName = .ok value ∧ toPy (.ofBackend value) = .ok plcValue := by
  unfold EtherNetIpSession.readTag EtherNetIpSession.detach
  rw [bind_eq_ok]
  simp only [raiseAs_eq_ok, readTag_eq_ok, and_iff_right hreach, hserves.readTag]
  constructor
  · rintro ⟨value, ⟨raw, hraw, rfl⟩, hpy⟩
    exact ⟨raw, hraw, hpy⟩
  · rintro ⟨raw, hraw, hpy⟩
    exact ⟨_, ⟨raw, hraw, rfl⟩, hpy⟩

/-- An individual read has one entry, if the tag holds its kind. -/
theorem readTag_result_iff (hconfig : dev.config.validate = .ok ())
    (hup : conn.IsUp (EtherNetIpSession.client backend ⟨some session⟩))
    (hreach : session.Reaches backend) {tag : TagDef} (htag : tag ∈ dev.config.tags)
    {channels : Channels} :
    (dev.readTag conn tag.tagAlias).result = .ok channels ↔
      ∃ payload, published conn memory tag = some payload ∧
        (∅ : Channels).insert (dev.channel tag) payload = channels := by
  unfold EtherNetIPDevice.readTag readTagRaw
  rw [getTag_of_mem hconfig htag, Exchange.check_ok_bind rfl, eipOp_of_up hup,
    Exchange.result_bind, bind_eq_ok]
  simp only [published_eq_some, Exchange.result_bind]
  constructor
  · rintro ⟨plcValue, hplc, h⟩
    obtain ⟨payload, hdecode, h⟩ := bind_eq_ok.mp h
    obtain ⟨value, hvalue, hpy⟩ :=
      (client_readTag_eq_ok_iff hserves hreach).mp (raiseAs_eq_ok.mp hplc)
    exact ⟨payload, ⟨value, hvalue, plcValue, hpy, hdecode⟩, Except.ok.inj h⟩
  · rintro ⟨payload, ⟨value, hvalue, plcValue, hpy, hdecode⟩, rfl⟩
    have hplc := (client_readTag_eq_ok_iff hserves hreach).mpr ⟨value, hvalue, hpy⟩
    exact ⟨plcValue, raiseAs_eq_ok.mpr hplc, bind_eq_ok.mpr ⟨payload, hdecode, rfl⟩⟩

/-- An individual read publishes the tag, if it holds its kind. -/
theorem reads_iff (hconfig : dev.config.validate = .ok ())
    (hup : conn.IsUp (EtherNetIpSession.client backend ⟨some session⟩))
    (hreach : session.Reaches backend) {tag : TagDef} (htag : tag ∈ dev.config.tags)
    {channel : String} {payload : Payload} :
    Reads dev conn tag channel payload ↔
      dev.channel tag = channel ∧ published conn memory tag = some payload := by
  unfold Reads
  constructor
  · rintro ⟨channels, hchannels, hlookup⟩
    obtain ⟨payload', hpublished, rfl⟩ :=
      (readTag_result_iff hserves hconfig hup hreach htag).mp hchannels
    by_cases hchannel : channel = dev.channel tag
    · subst hchannel
      rw [AList.lookup_insert] at hlookup
      obtain rfl := Option.some.inj hlookup
      exact ⟨rfl, hpublished⟩
    · rw [AList.lookup_insert_ne hchannel] at hlookup
      cases hlookup
  · rintro ⟨rfl, hpublished⟩
    have hchannels :=
      (readTag_result_iff hserves hconfig hup hreach htag).mpr ⟨payload, hpublished, rfl⟩
    exact ⟨_, hchannels, AList.lookup_insert _⟩

end Cycle

/-- **Batched polling.** A cycle whose batch is dispatched publishes what individual reads would,
exactly when no polled tag holds a string or no polled tag holds a value of its kind. -/
theorem pollsLikeReads_iff (dev : EtherNetIPDevice) (conn : Connection) (backend : Backend)
    (memory : PlcMemory) (session : ExplicitSession) (values : List (String × Except Error Value))
    (hconfig : dev.config.validate = .ok ())
    (hup : conn.IsUp (EtherNetIpSession.client backend ⟨some session⟩))
    (hserves : backend.Serves memory)
    (hdispatch :
      (session.readTags backend (dev.config.polledTags.map (·.tagName))).1 = .ok values) :
    PollsLikeReads dev conn ↔
      (∀ tag ∈ dev.config.polledTags, ¬ HoldsString memory tag) ∨
        ∀ tag ∈ dev.config.polledTags, ¬ HoldsKind memory tag := by
  obtain ⟨hreach, -⟩ := batchAnswer_eq hserves hdispatch
  have hmem : ∀ tag ∈ dev.config.polledTags, tag ∈ dev.config.tags := fun tag htag =>
    List.mem_of_mem_filter htag
  constructor
  · intro hlike
    by_contra hboth
    push Not at hboth
    obtain ⟨⟨stringTag, hstringTag, hstring⟩, tag, htag, hkind⟩ := hboth
    obtain ⟨payload, hpublished⟩ := (published_isSome_iff (loaded_of_up hup)).mpr hkind
    have hreads : Reads dev conn tag (dev.channel tag) payload :=
      (reads_iff hserves hconfig hup hreach (hmem tag htag)).mpr ⟨rfl, hpublished⟩
    exact not_publishes_of_string hserves hup hdispatch hstringTag hstring _ _
      ((hlike _ _).mpr ⟨tag, htag, hreads⟩)
  · intro hcond channel payload
    by_cases hstrings : ∀ tag ∈ dev.config.polledTags, ¬ HoldsString memory tag
    · rw [publishes_iff hserves hconfig hup hdispatch hstrings]
      constructor
      · rintro ⟨tag, htag, h⟩
        exact ⟨tag, htag, (reads_iff hserves hconfig hup hreach (hmem tag htag)).mpr h⟩
      · rintro ⟨tag, htag, h⟩
        exact ⟨tag, htag, (reads_iff hserves hconfig hup hreach (hmem tag htag)).mp h⟩
    · have hkinds := hcond.resolve_left hstrings
      push Not at hstrings
      obtain ⟨stringTag, hstringTag, hstring⟩ := hstrings
      refine iff_of_false (not_publishes_of_string hserves hup hdispatch hstringTag hstring _ _) ?_
      rintro ⟨tag, htag, hreads⟩
      obtain ⟨-, hpublished⟩ :=
        (reads_iff hserves hconfig hup hreach (hmem tag htag)).mp hreads
      exact hkinds tag htag ((published_isSome_iff (loaded_of_up hup)).mp ⟨payload, hpublished⟩)

/-! ## Two tags -/

/-- A backend that is connected to a PLC memory. -/
def memoryBackend (memory : PlcMemory) : Backend where
  connect _ _ := .ok ()
  readTag name := (memory name).mapError fun _ => ⟨"read failed", false⟩
  readTagsBatch names := .ok (names.map fun name => (name, memory name))
  writeTag _ _ := .ok ()

theorem memoryBackend_serves (memory : PlcMemory) : (memoryBackend memory).Serves memory where
  readTag name value := by
    show (memory name).mapError _ = .ok value ↔ _
    exact raiseAs_eq_ok
  readTagsBatch names batch h := (Except.ok.inj h).symm

def connectedSession : ExplicitSession := ⟨"192.168.1.10:44818", [], true, []⟩

def connectionTo (memory : PlcMemory) : Connection where
  stopping := false
  client := some (EtherNetIpSession.client (memoryBackend memory) ⟨some connectedSession⟩)
  nativeLoaded := true
  loaded_of_client := fun _ => rfl

def dintTag (tagAlias tagName : String) : TagDef where
  tagAlias := tagAlias
  tagName := tagName
  dataType := .dint
  poll := true
  writeMin := none
  writeMax := none

def twoTagDevice : EtherNetIPDevice :=
  ⟨"plc", ⟨"ethernetip", [dintTag "speed" "Speed", dintTag "label" "Label"]⟩⟩

/-- `Speed` holds 5 and the other tags what is given. -/
def speedMemory (other : Except BatchReadError BackendValue) : PlcMemory := fun name =>
  if name = "Speed" then .ok (.scalar (.dint 5)) else other

/-- A missing tag does not disturb the cycle. -/
theorem pollsLikeReads_missing_tag :
    PollsLikeReads twoTagDevice (connectionTo (speedMemory (.error (.tagNotFound "Label")))) := by
  refine (pollsLikeReads_iff _ _ _ _ connectedSession _ rfl ⟨rfl, rfl⟩ (memoryBackend_serves _)
    rfl).mpr (.inl ?_)
  rintro tag - ⟨s, hs⟩
  unfold speedMemory at hs
  split_ifs at hs
  cases hs

/-- A string in `Label` takes the reading of `Speed` with it. -/
theorem string_fails_cycle :
    let memory := speedMemory (.ok (.scalar (.string "pump")))
    twoTagDevice.config.validate = .ok () ∧ (memoryBackend memory).Serves memory ∧
      (∃ values, (connectedSession.readTags (memoryBackend memory) ["Speed", "Label"]).1 =
        .ok values) ∧
      ¬ PollsLikeReads twoTagDevice (connectionTo memory) := by
  refine ⟨rfl, memoryBackend_serves _, ⟨_, rfl⟩, fun hlike => ?_⟩
  have hreads : Reads twoTagDevice (connectionTo (speedMemory (.ok (.scalar (.string "pump")))))
      (dintTag "speed" "Speed") "plc.speed" (.value (.num (.int 5))) := ⟨_, rfl, rfl⟩
  obtain ⟨channels, hresult, -⟩ := (hlike _ _).mpr ⟨_, List.mem_cons_self, hreads⟩
  cases hresult

end Instro.EthernetIp
