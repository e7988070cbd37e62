import IrcordServer.Net.Fanout
import IrcordServer.Net.Traffic
import IrcordServer.RoundTrip

/-!
# Who a message is from

A chat message or a voice signal names its sender inside a payload that the server relays, or stores
and replays at a later login, as it is.  The server refuses one that names anybody but the user of
the session it came from, so that whatever a user gets was sent by the user it names.
-/

open Container Run

namespace Ircord

/-- The envelopes that users send to each other through the server. -/
def MessageType.Relayed (type : MessageType) : Prop :=
  type = .chatEnvelope ∨ type = .voiceSignal

theorem MessageType.Ordinary.not_relayed {type : MessageType} (h : type.Ordinary) :
    ¬ type.Relayed := by
  rintro (rfl | rfl)
  · exact h.1 rfl
  · exact h.2.1 rfl

/-- The user whom a chat message or a voice signal names as its sender. -/
def Envelope.claimedSender (codec : Codec) (env : Envelope) : Option Str :=
  match env.type with
  | .chatEnvelope => (env.parsePayload codec.chatEnvelope).map (·.senderId)
  | .voiceSignal => (env.parsePayload codec.voiceSignal).map (·.fromUser)
  | _ => none

/-- An envelope that an established session received, with the user of the session. -/
abbrev Receipt := Str × Envelope

/-- If users relay such envelopes, then this one was received from the sender it names. -/
def Authentic (codec : Codec) (receipts : List Receipt) (env : Envelope) : Prop :=
  env.type.Relayed → ∃ u, (u, env) ∈ receipts ∧ env.claimedSender codec = some u

/-- The envelopes that the offline messages replay are authentic. -/
def StoredAuthentic (codec : Codec) (receipts : List Receipt) (db : Database) : Prop :=
  ∀ r ∈ db.offlineMessages.rows, ∀ env, codec.envelope.parse r.2.payload = some env →
    Authentic codec receipts env

variable {codec : Codec} {crypto : Crypto} {receipts : List Receipt} {d : Draws} {s : SessionId}
  {x : Session} {env : Envelope}

theorem Authentic.mono {receipts' : List Receipt} (h : Authentic codec receipts env)
    (hsub : receipts ⊆ receipts') : Authentic codec receipts' env := by
  intro hrelayed
  obtain ⟨u, hu, hsender⟩ := h hrelayed
  exact ⟨u, hsub hu, hsender⟩

theorem StoredAuthentic.mono {receipts' : List Receipt} {db : Database}
    (h : StoredAuthentic codec receipts db) (hsub : receipts ⊆ receipts') :
    StoredAuthentic codec receipts' db :=
  fun r hr env henv => (h r hr env henv).mono hsub

namespace Server

variable {sv sv' : Server}

/-- What was written and what is stored is authentic. -/
structure Genuine (codec : Codec) (receipts : List Receipt) (sv : Server) : Prop where
  written : ∀ e ∈ sv.written, Authentic codec receipts e.2
  stored : StoredAuthentic codec receipts sv.db

theorem Genuine.mono {receipts' : List Receipt} (h : Genuine codec receipts sv)
    (hsub : receipts ⊆ receipts') : Genuine codec receipts' sv :=
  ⟨fun e he => (h.written e he).mono hsub, h.stored.mono hsub⟩

/-- The envelope that an established session gets with this step. -/
def receipt (codec : Codec) (sv : Server) (i : Input) : Option Receipt :=
  match i.event with
  | .payloadRead s (some data) =>
    if sv.enabled i.event then
      sv.sessions[s]?.bind fun x => (codec.envelope.parse data).bind fun env =>
        if x.state = .established then some (x.userId, env) else none
    else none
  | _ => none

/-! ## Keeping what is genuine -/

/-- Nothing is written or stored that is not authentic. -/
def Keeps (codec : Codec) (receipts : List Receipt) (sv sv' : Server) : Prop :=
  Genuine codec receipts sv → Genuine codec receipts sv'

theorem keeps_log (t : SessionId) (henv : Authentic codec receipts env) :
    Keeps codec receipts sv { sv with written := sv.written ++ [(t, env)] } := by
  rintro ⟨hwritten, hstored⟩
  refine ⟨fun e he => ?_, hstored⟩
  rcases List.mem_append.1 he with he | he
  · exact hwritten e he
  · rw [List.mem_singleton.1 he]
    exact henv

theorem keeps_setDb {db : Database}
    (h : ∀ r ∈ db.offlineMessages.rows, r ∈ sv.db.offlineMessages.rows ∨
      ∀ env, codec.envelope.parse r.2.payload = some env → Authentic codec receipts env) :
    Keeps codec receipts sv { sv with db := db } := by
  rintro ⟨hwritten, hstored⟩
  refine ⟨hwritten, fun r hr => ?_⟩
  rcases h r hr with hr | hr
  · exact hstored r hr
  · exact hr

/-- A nickname change that is parsed again is still a nickname change. -/
def NickChangesSurvive (codec : Codec) : Prop :=
  ∀ change env, codec.envelope.parse
    (codec.envelope.serialize (CommandHandler.nickChangeEnvelope codec change)) = some env →
      env.type = .nickChange

theorem tolerates_keeps (hnick : NickChangesSurvive codec) :
    Tolerates codec (Keeps codec receipts) where
  refl _ := id
  trans h h' := h' ∘ h
  modify _ _ _ _ := fun h => ⟨h.written, h.stored⟩
  log _ t env henv := keeps_log t fun hrelayed => absurd hrelayed henv.not_relayed
  setDb sv db hstores _ _ := keeps_setDb fun r hr => by
    rcases hstores r hr with hr | ⟨change, hpayload⟩
    · exact Or.inl hr
    · refine Or.inr fun env henv hrelayed => ?_
      rw [hpayload] at henv
      rw [hnick change env henv] at hrelayed
      rcases hrelayed with h | h <;> cases h
  rest sv sv' _ hdb hwritten := by
    rintro ⟨h, h'⟩
    exact ⟨hwritten ▸ h, hdb ▸ h'⟩

/-! ## Relayed envelopes -/

/-- Nothing but errors for the session, and nothing stored. -/
structure Refuses (s : SessionId) (sv sv' : Server) : Prop where
  written : ∃ errors, sv'.written = sv.written ++ errors ∧ ∀ e ∈ errors, e.1 = s ∧ e.2.type = .error
  stored : sv'.db = sv.db

/-- Nothing but the envelope itself and what the server says on its own. -/
structure Forwards (codec : Codec) (env : Envelope) (sv sv' : Server) : Prop where
  written : ∀ e ∈ sv'.written, e ∈ sv.written ∨ e.2 = env ∨ e.2.type.Ordinary
  stored : ∀ r ∈ sv'.db.offlineMessages.rows, r ∈ sv.db.offlineMessages.rows ∨
    r.2.payload = codec.envelope.serialize env

theorem Refuses.refl (s : SessionId) (sv : Server) : Refuses s sv sv :=
  ⟨⟨[], (List.append_nil _).symm, fun _ he => absurd he List.not_mem_nil⟩, rfl⟩

theorem Refuses.trans {sv'' : Server} (h : Refuses s sv sv') (h' : Refuses s sv' sv'') :
    Refuses s sv sv'' := by
  obtain ⟨⟨errors, hwritten, herrors⟩, hstored⟩ := h
  obtain ⟨⟨errors', hwritten', herrors'⟩, hstored'⟩ := h'
  refine ⟨⟨errors ++ errors', ?_, fun e he => ?_⟩, hstored'.trans hstored⟩
  · rw [hwritten', hwritten, List.append_assoc]
  · rcases List.mem_append.1 he with he | he
    · exact herrors e he
    · exact herrors' e he

theorem refuses_modify (f : Session → Session) : Refuses s sv (sv.modify s f) :=
  ⟨(Refuses.refl s sv).written, rfl⟩

theorem refuses_sendError (code : UInt32) (message : String) :
    Refuses s sv (sv.sendError codec d s code message) := by
  unfold sendError sendEnvelope
  split
  · exact Refuses.refl s sv
  · refine ⟨⟨[_], rfl, fun e he => ?_⟩, rfl⟩
    rw [List.mem_singleton.1 he]
    exact ⟨rfl, rfl⟩

theorem refuses_allowMessage {allowed : Bool} (h : sv.allowMessage d s x = (allowed, sv')) :
    Refuses s sv sv' := by
  unfold allowMessage at h
  split at h
  · cases h
    exact Refuses.refl s sv
  · cases h
    exact refuses_modify _

theorem Refuses.forwards {sv'' : Server} (h : Refuses s sv sv') (h' : Forwards codec env sv' sv'') :
    Forwards codec env sv sv'' := by
  obtain ⟨⟨errors, hwritten, herrors⟩, hstored⟩ := h
  refine ⟨fun e he => ?_, fun r hr => ?_⟩
  · rcases h'.written e he with he | he
    · rw [hwritten] at he
      rcases List.mem_append.1 he with he | he
      · exact Or.inl he
      · refine Or.inr (Or.inr ?_)
        rw [(herrors e he).2]
        decide
    · exact Or.inr he
  · rw [← hstored]
    exact h'.stored r hr

theorem forwards_refl : Forwards codec env sv sv :=
  ⟨fun _ he => Or.inl he, fun _ hr => Or.inl hr⟩

theorem forwards_send (t : SessionId) : Forwards codec env sv (sv.send t env) := by
  refine ⟨fun e he => ?_, fun _ hr => Or.inl hr⟩
  rcases List.mem_append.1 he with he | he
  · exact Or.inl he
  · exact Or.inr (Or.inl (by rw [List.mem_singleton.1 he]))

theorem forwards_sendError (code : UInt32) (message : String) :
    Forwards codec env sv (sv.sendError codec d s code message) :=
  (refuses_sendError code message).forwards forwards_refl

theorem forwards_broadcast (exclude : Option SessionId) :
    Forwards codec env sv (sv.broadcast env exclude) := by
  refine ⟨fun e he => ?_, ?_⟩
  · rw [written_broadcast] at he
    rcases List.mem_append.1 he with he | he
    · exact Or.inl he
    · obtain ⟨t, -, rfl⟩ := List.mem_map.1 he
      exact Or.inr (Or.inl rfl)
  · rw [db_broadcast]
    exact fun _ hr => Or.inl hr

/-- A chat message from the user of the session goes to sessions or to the offline messages; any
other is refused. -/
theorem handleChat_cases (chat : ChatEnvelope) :
    Refuses s sv (sv.handleChat codec d s x chat env) ∨
      chat.senderId = x.userId ∧ Forwards codec env sv (sv.handleChat codec d s x chat env) := by
  unfold handleChat
  split_ifs with hsender
  · exact Or.inl ((refuses_sendError _ _).trans (refuses_modify _))
  · exact Or.inl (refuses_sendError _ _)
  · exact Or.inr ⟨not_not.1 hsender, forwards_broadcast _⟩
  · refine Or.inr ⟨not_not.1 hsender, ?_⟩
    split
    · exact forwards_send _
    · have hstored {b : Bool} {db : Database}
          (h : OfflineStore.save sv.db chat.recipientId (codec.envelope.serialize env) d.nowUnix =
            (b, db)) : Forwards codec env sv { sv with db := db } := by
        refine ⟨fun e he => Or.inl he, fun r hr => ?_⟩
        have hdb : db = (OfflineStore.save sv.db chat.recipientId
          (codec.envelope.serialize env) d.nowUnix).2 := by rw [h]
        rw [hdb] at hr
        exact OfflineStore.mem_rows_save hr
      split
      · exact hstored ‹_›
      · rename_i db hsave
        have herror := @forwards_sendError codec d s env { sv with db := db } 4034
          "Recipient offline queue full"
        have hsaved := hstored hsave
        refine ⟨fun e he => ?_, fun r hr => ?_⟩
        · exact herror.written e he
        · rcases herror.stored r hr with hr | hr
          · exact hsaved.stored r hr
          · exact Or.inr hr

theorem handleVoiceSignal_cases (vs : VoiceSignal) :
    Refuses s sv (sv.handleVoiceSignal codec d s x vs env) ∨
      vs.fromUser = x.userId ∧ Forwards codec env sv (sv.handleVoiceSignal codec d s x vs env) := by
  unfold handleVoiceSignal
  split_ifs with hsender
  · exact Or.inl ((refuses_sendError _ _).trans (refuses_modify _))
  · exact Or.inl (refuses_sendError _ _)
  · refine Or.inr ⟨not_not.1 hsender, ?_⟩
    split
    · exact forwards_send _
    · exact forwards_sendError _ _
  · refine Or.inr ⟨not_not.1 hsender, ?_⟩
    split
    · exact forwards_send _
    · exact forwards_refl

/-- A chat message or a voice signal is refused, or forwarded from an established session whose user
it names. -/
theorem handleEnvelope_relayed (h : env.type.Relayed) :
    Refuses s sv (sv.handleEnvelope codec crypto d s x env) ∨
      x.state = .established ∧ env.claimedSender codec = some x.userId ∧
        Forwards codec env sv (sv.handleEnvelope codec crypto d s x env) := by
  -- the guards that both kinds share
  have hguards {α : Type} (wire : Wire α) (code code' : UInt32) (message : String)
      (sender : α → Str) (handle : Server → α → Server)
      (hhandle : ∀ sv m, Refuses s sv (handle sv m) ∨
        sender m = x.userId ∧ Forwards codec env sv (handle sv m)) :
      let handled := sv.ifAuthenticated codec d s x code <| sv.ifAllowed codec d s x fun sv =>
        sv.handlePayload codec d s env wire code' message (handle sv)
      Refuses s sv handled ∨ x.state = .established ∧
        (env.parsePayload wire).map sender = some x.userId ∧ Forwards codec env sv handled := by
    dsimp only
    unfold ifAuthenticated ifAllowed handlePayload
    split_ifs with hstate
    · split
      · rename_i sv₁ hallow
        exact Or.inl ((refuses_allowMessage hallow).trans (refuses_sendError _ _))
      · rename_i sv₁ hallow
        have hallowed := refuses_allowMessage hallow
        split
        · exact Or.inl (hallowed.trans (refuses_sendError _ _))
        · rename_i m hm
          rcases hhandle sv₁ m with hrefuses | ⟨hsender, hforwards⟩
          · exact Or.inl (hallowed.trans hrefuses)
          · refine Or.inr ⟨hstate, ?_, hallowed.forwards hforwards⟩
            rw [hm, Option.map_some, hsender]
    · exact Or.inl (refuses_sendError _ _)
  unfold handleEnvelope Envelope.claimedSender
  rcases h with h | h <;> rw [h]
  · exact hguards _ _ _ _ _ _ fun sv chat => handleChat_cases chat
  · exact hguards _ _ _ _ _ _ fun sv vs => handleVoiceSignal_cases vs

/-- What `parse` reads is read again after it was serialized. -/
def EnvelopesSurvive (codec : Codec) : Prop :=
  ∀ data env, codec.envelope.parse data = some env →
    codec.envelope.parse (codec.envelope.serialize env) = some env

theorem Forwards.keeps (h : Forwards codec env sv sv')
    (hparse : codec.envelope.parse (codec.envelope.serialize env) = some env)
    (henv : Authentic codec receipts env) : Keeps codec receipts sv sv' := by
  rintro ⟨hwritten, hstored⟩
  refine ⟨fun e he => ?_, fun r hr env' henv' => ?_⟩
  · rcases h.written e he with he | he | he
    · exact hwritten e he
    · rw [he]
      exact henv
    · exact fun hrelayed => absurd hrelayed he.not_relayed
  · rcases h.stored r hr with hr | hr
    · exact hstored r hr env' henv'
    · rw [hr, hparse] at henv'
      cases henv'
      exact henv

theorem Refuses.keeps (h : Refuses s sv sv') : Keeps codec receipts sv sv' := by
  obtain ⟨⟨errors, hwritten, herrors⟩, hstored⟩ := h
  rintro ⟨h, h'⟩
  refine ⟨fun e he => ?_, hstored ▸ h'⟩
  rw [hwritten] at he
  rcases List.mem_append.1 he with he | he
  · exact h e he
  · intro hrelayed
    rw [(herrors e he).2] at hrelayed
    rcases hrelayed with h | h <;> cases h

/-! ## Replayed envelopes and files -/

theorem keeps_modify (t : SessionId) (f : Session → Session) :
    Keeps codec receipts sv (sv.modify t f) := fun h => ⟨h.written, h.stored⟩

theorem keeps_foldl_send {envs : List Envelope} (h : ∀ env ∈ envs, Authentic codec receipts env) :
    Keeps codec receipts sv (envs.foldl (fun sv env => sv.send s env) sv) := by
  induction envs generalizing sv with
  | nil => exact id
  | cons env envs ih =>
    intro hsv
    exact ih (fun env' henv' => h env' (List.mem_cons_of_mem env henv'))
      (keeps_log s (h env List.mem_cons_self) (keeps_modify s _ hsv))

/-- What a login replays was stored, and so is authentic. -/
theorem keeps_deliverOffline (userId : Str) :
    Keeps codec receipts sv (sv.deliverOffline codec d s userId) := by
  intro hsv
  refine keeps_foldl_send (fun env henv => ?_) (keeps_setDb (fun r hr => ?_) hsv)
  · obtain ⟨payload, hpayload, hparse⟩ := List.mem_filterMap.1 henv
    obtain ⟨r, hr, rfl⟩ := List.mem_map.1 hpayload
    exact hsv.stored r (List.mem_filter.1 hr).1 env hparse
  · exact Or.inl (Sql.Table.mem_retain.1 hr).1

theorem keeps_filesDb {db : Database} (h : db.offlineMessages = sv.db.offlineMessages) :
    Keeps codec receipts sv { sv with db := db } :=
  keeps_setDb fun _ hr => Or.inl (h ▸ hr)

section Files

variable (hR : Tolerates codec (Keeps codec receipts))

include hR

theorem keeps_handleFileRequest (req : FileUploadRequest) :
    Keeps codec receipts sv (sv.handleFileRequest codec d s x req) := by
  have herror (sv : Server) (code : UInt32) (message : Str) :
      Keeps codec receipts sv (sv.sendFileError codec d s req.fileId code message) :=
    hR.sendEnvelope sv s (by decide) _
  unfold handleFileRequest
  split
  · exact herror sv _ _
  · split
    · exact herror sv _ _
    · dsimp only
      generalize hcreate : FileStore.createFile sv.db _ d.nowUnix = created
      have hdb : created.2.offlineMessages = sv.db.offlineMessages := by
        rw [← hcreate]
        exact FileStore.offlineMessages_createFile _ _
      split
      · exact herror _ _ _ ∘ keeps_filesDb hdb
      · exact hR.sendEnvelope _ s (by decide) _ ∘ keeps_modify s _ ∘ keeps_filesDb hdb

theorem keeps_finishUpload (fileId : Str) (upload : FileUploadState) :
    Keeps codec receipts sv (sv.finishUpload codec d s fileId upload) := by
  unfold finishUpload
  dsimp only
  split_ifs
  · refine keeps_modify s _ ∘ hR.sendEnvelope _ s (by decide) _ ∘ keeps_filesDb ?_
    rfl
  · refine keeps_modify s _ ∘ hR.sendEnvelope _ s (by decide) _ ∘ keeps_filesDb ?_
    exact FileStore.offlineMessages_markComplete fileId .null

theorem keeps_handleFileUpload (chunk : FileUploadChunk) :
    Keeps codec receipts sv (sv.handleFileUpload codec d s x chunk) := by
  have herror (sv : Server) (code : UInt32) (message : Str) :
      Keeps codec receipts sv (sv.sendFileError codec d s chunk.fileId code message) :=
    hR.sendEnvelope sv s (by decide) _
  unfold handleFileUpload
  split
  · rename_i sv₁ hallow
    exact herror _ _ _ ∘ hR.allowMessage hallow
  · rename_i sv₁ hallow
    refine Function.comp ?_ (hR.allowMessage hallow)
    split
    · exact herror _ _ _
    · split
      · exact herror _ _ _
      · generalize hstore : FileStore.storeChunk sv₁.db chunk.fileId chunk.chunkIndex chunk.data =
          stored
        have hdb : stored.2.offlineMessages = sv₁.db.offlineMessages := by
          rw [← hstore]
          exact FileStore.offlineMessages_storeChunk _ _ _
        have hprogress {sv : Server} (payload : Bytes) :
            Keeps codec receipts sv (sv.sendEnvelope d s .fileProgress payload) :=
          hR.sendEnvelope sv s (by decide) payload
        split
        · exact herror _ _ _ ∘ keeps_filesDb hdb
        · dsimp only
          split
          · exact keeps_finishUpload hR _ _ ∘ hprogress _ ∘ keeps_modify s _ ∘ keeps_filesDb hdb
          · exact hprogress _ ∘ keeps_modify s _ ∘ keeps_filesDb hdb

theorem keeps_sendChunks (fileId : Str) (fileSize totalChunks n i : ℕ) (sv : Server) :
    Keeps codec receipts sv (sendChunks codec d s fileId fileSize totalChunks n i sv) := by
  induction n generalizing i sv with
  | zero => exact id
  | succ n ih =>
    unfold sendChunks
    split
    · exact hR.sendEnvelope _ s (by decide) _
    · have hchunk {sv : Server} (payload : Bytes) :
          Keeps codec receipts sv (sv.sendEnvelope d s .fileChunk payload) := by
        unfold sendEnvelope
        split
        · exact id
        · refine keeps_log s (fun hrelayed => ?_) ∘ keeps_modify s _ ∘ keeps_modify s _
          rcases hrelayed with h | h <;> cases h
      have hprogress {sv : Server} (payload : Bytes) :
          Keeps codec receipts sv (sv.sendEnvelope d s .fileProgress payload) :=
        hR.sendEnvelope sv s (by decide) payload
      exact ih _ _ ∘ hprogress _ ∘ hchunk _

end Files

/-! ## Steps -/

section Step

/-- The handlers of a session keep what is genuine, if what it relays is received from it. -/
theorem keeps_handleEnvelope (hnick : NickChangesSurvive codec)
    (hparse : codec.envelope.parse (codec.envelope.serialize env) = some env)
    (hreceipt : x.state = .established → (x.userId, env) ∈ receipts) :
    Keeps codec receipts sv (sv.handleEnvelope codec crypto d s x env) := by
  have hR : Tolerates codec (Keeps codec receipts) := tolerates_keeps hnick
  by_cases hlisted : env.type ∈ Tolerates.relayOrFileTypes
  · have hrelayed (h : env.type.Relayed) :
        Keeps codec receipts sv (sv.handleEnvelope codec crypto d s x env) := by
      rcases handleEnvelope_relayed h with hrefuses | ⟨hstate, hsender, hforwards⟩
      · exact hrefuses.keeps
      · exact hforwards.keeps hparse fun _ => ⟨x.userId, hreceipt hstate, hsender⟩
    simp only [Tolerates.relayOrFileTypes, List.mem_cons, List.not_mem_nil, or_false] at hlisted
    rcases hlisted with htype | htype | htype | htype | htype
    · unfold handleEnvelope
      rw [htype]
      dsimp only
      split_ifs
      · split
        · exact hR.sendError_disconnect sv s _ _
        · exact hR.handleAuthResponse (fun sv' _ userId => keeps_deliverOffline userId) _
      · exact id
    · exact hrelayed (Or.inl htype)
    · exact hrelayed (Or.inr htype)
    · unfold handleEnvelope
      rw [htype]
      refine hR.ifAuthenticated _ fun _ => ?_
      unfold handleFileUploadPayload
      split
      · exact hR.sendError sv s _ _
      · split
        · exact keeps_handleFileUpload hR _
        · split
          · exact keeps_handleFileRequest hR _
          · exact hR.sendError sv s _ _
    · unfold handleEnvelope
      rw [htype]
      refine hR.ifAuthenticated _ fun _ => hR.handlePayload _ _ _ _ fun req => ?_
      unfold handleFileDownload
      split
      · exact hR.sendEnvelope sv s (by decide) _
      · exact keeps_sendChunks hR _ _ _ _ _ sv
  · exact hR.handleEnvelope hlisted

theorem keeps_cleanup (nowUnix : ℤ) :
    Keeps codec receipts sv { sv with
      db := FileStore.cleanupExpired (OfflineStore.cleanupExpired sv.db nowUnix) nowUnix } :=
  keeps_setDb fun _ hr => Or.inl (Sql.Table.mem_retain.1 hr).1

theorem keeps_onAccept (ip : Str) : Keeps codec receipts sv (sv.onAccept d ip) := by
  unfold onAccept
  dsimp only
  split_ifs
  all_goals exact fun h => ⟨h.written, h.stored⟩

/-- Every step keeps what is genuine, if the envelope that it received counts as received. -/
theorem keeps_step (hnick : NickChangesSurvive codec) (hparse : EnvelopesSurvive codec) {i : Input}
    (hreceipt : ∀ r, receipt codec sv i = some r → r ∈ receipts) :
    Keeps codec receipts sv (step codec crypto sv i) := by
  have hR : Tolerates codec (Keeps codec receipts) := tolerates_keeps hnick
  unfold step
  split_ifs with henabled
  · by_cases hframe : ∃ t data, i.event = .payloadRead t (some data)
    · obtain ⟨t, data, hevent⟩ := hframe
      unfold receipt at hreceipt
      rw [hevent] at henabled hreceipt ⊢
      dsimp only at hreceipt
      rw [if_pos henabled] at hreceipt
      unfold perform
      dsimp only
      split
      · exact id
      · rename_i x hx
        have hreading : Keeps codec receipts sv (sv.modify t fun x => { x with reading := none }) :=
          keeps_modify t _
        have hreceived (sv' : Server) : Keeps codec receipts sv'
            (sv'.onFrameReceived codec crypto i.draws t x data) := by
          unfold onFrameReceived
          split
          · exact hR.sendError _ t _ _
          · rename_i env henv
            refine keeps_handleEnvelope hnick (hparse data env henv) fun hstate => ?_
            refine hreceipt _ ?_
            rw [hx, henv, Option.bind_some, Option.bind_some, if_pos hstate]
        exact hR.doReadFrameHeader _ t ∘ hreceived _ ∘ hreading
    · by_cases hcleanup : i.event = .cleanup
      · rw [hcleanup]
        exact keeps_cleanup _
      · by_cases haccept : ∃ ip, i.event = .accept ip
        · obtain ⟨ip, haccept⟩ := haccept
          rw [haccept]
          exact keeps_onAccept ip
        · push Not at hframe haccept
          exact hR.perform hframe haccept hcleanup
  · exact id

end Step

/-! ## Runs -/

/-- The steps write and store nothing but what is genuine, with all that was received so far. -/
theorem genuine_final (hnick : NickChangesSurvive codec) (hparse : EnvelopesSurvive codec)
    (hsv : Genuine codec receipts sv) (is : List Input) :
    Genuine codec (receipts ++ observe (step codec crypto) (receipt codec) sv is)
      (final (step codec crypto) sv is) := by
  induction is generalizing receipts sv with
  | nil => exact hsv.mono (List.subset_append_left _ _)
  | cons i is ih =>
    rw [observe, final_cons, ← List.append_assoc]
    refine ih (keeps_step hnick hparse (fun r hr => ?_) (hsv.mono (List.subset_append_left _ _)))
    rw [hr]
    exact List.mem_append_right _ (List.mem_singleton_self r)

/-- What the step receives but may not relay stays with the session: nothing but errors for it is
written, and nothing is stored. -/
def SpoofDropped (codec : Codec) (crypto : Crypto) (sv : Server) (i : Input) : Prop :=
  ∀ s data x env, i.event = .payloadRead s (some data) → sv.sessions[s]? = some x →
    codec.envelope.parse data = some env → env.type.Relayed →
    ¬ (x.state = .established ∧ env.claimedSender codec = some x.userId) →
    (∀ e ∈ sv.newlyWritten (step codec crypto sv i), e.1 = s ∧ e.2.type = .error) ∧
      (step codec crypto sv i).db.offlineMessages = sv.db.offlineMessages

theorem spoofDropped (sv : Server) (i : Input) : SpoofDropped codec crypto sv i := by
  intro s data x env hevent hx henv hrelayed hspoofed
  have hstep : Refuses s sv (step codec crypto sv i) := by
    unfold step
    split_ifs
    · rw [hevent]
      unfold perform
      dsimp only
      rw [hx]
      dsimp only
      have hreading : Refuses s sv (sv.modify s fun x => { x with reading := none }) :=
        refuses_modify _
      have hreceived (sv' : Server) :
          Refuses s sv' (sv'.onFrameReceived codec crypto i.draws s x data) := by
        unfold onFrameReceived
        rw [henv]
        rcases handleEnvelope_relayed hrelayed with hrefuses | ⟨hstate, hsender, -⟩
        · exact hrefuses
        · exact absurd ⟨hstate, hsender⟩ hspoofed
      exact (hreading.trans (hreceived _)).trans (refuses_modify _)
    · exact Refuses.refl s sv
  obtain ⟨⟨errors, hwritten, herrors⟩, hdb⟩ := hstep
  refine ⟨fun e he => herrors e ?_, by rw [hdb]⟩
  unfold newlyWritten at he
  rwa [hwritten, List.drop_left] at he

/-- Every chat message and voice signal that is written, stored or replayed was received, as it is,
from the user it names, and one that names another user goes nowhere.  The tables the server starts
with may hold what an earlier run `earlier` received. -/
theorem senders_are_authentic (codec : Codec) (hnick : NickChangesSurvive codec)
    (hparse : EnvelopesSurvive codec) (crypto : Crypto) (config : Config) (db : Database)
    (earlier : List Receipt) (hdb : StoredAuthentic codec earlier db) (is : List Input) :
    Genuine codec (earlier ++ observe (step codec crypto) (receipt codec) (start config db) is)
        (final (step codec crypto) (start config db) is) ∧
      AllSteps (step codec crypto) (SpoofDropped codec crypto) (start config db) is := by
  refine ⟨genuine_final hnick hparse ⟨fun e he => ?_, hdb⟩ is, ?_⟩
  · exact absurd he List.not_mem_nil
  · exact allSteps_iff.2 fun pre i _ _ => spoofDropped _ i

/-! ## A message is relayed -/

/-- The proto3 encoding, which gives up on nickname changes of 2 GB. -/
def boundedProto3 : Codec :=
  { Codec.proto3 with
    nickChange :=
      { Codec.proto3.nickChange with
        serialize := fun change =>
          let b := Codec.proto3.nickChange.serialize change
          if b.length < 2 ^ 31 then b else [] } }

theorem nickChangesSurvive_boundedProto3 : NickChangesSurvive boundedProto3 := by
  intro change env henv
  have hlength : (boundedProto3.nickChange.serialize change).length < 2 ^ 64 := by
    show (ite _ _ _ : Bytes).length < 2 ^ 64
    split_ifs with hshort
    · omega
    · exact Nat.two_pow_pos 64
  have hseq : (0 : ℕ) < 2 ^ 64 := by norm_num
  have htype : MessageType.ofCode (MessageType.code .nickChange) = .nickChange ∧
      MessageType.code .nickChange < 2 ^ 64 := by decide
  have hsurvives := @parse_serialize_envelope
    (CommandHandler.nickChangeEnvelope boundedProto3 change) 0 hseq ⟨rfl, hseq⟩ htype hlength
  have heq := hsurvives.symm.trans henv
  cases heq
  rfl

/-- `alice` and `bob` log in, and `alice` writes to `bob`. -/
def relayedRun : List Input :=
  (loginEvents 0 (str "alice") aliceSignature ++ loginEvents 1 (str "bob") bobSignature ++
    frameEvents 0 .chatEnvelope
      (Codec.proto3.chatEnvelope.serialize ⟨str "alice", str "bob"⟩)).map Event.atZero

theorem senders_are_authentic_relayedRun :
    (∃ e ∈ (final (step boundedProto3 aliceBobCrypto) (start ⟨10, 10, 10, []⟩ .empty)
        relayedRun).written, e.1 = 1 ∧ e.2.type = .chatEnvelope) ∧
      Genuine boundedProto3 ([] ++ observe (step boundedProto3 aliceBobCrypto)
          (receipt boundedProto3) (start ⟨10, 10, 10, []⟩ .empty) relayedRun)
        (final (step boundedProto3 aliceBobCrypto) (start ⟨10, 10, 10, []⟩ .empty) relayedRun) ∧
      AllSteps (step boundedProto3 aliceBobCrypto) (SpoofDropped boundedProto3 aliceBobCrypto)
        (start ⟨10, 10, 10, []⟩ .empty) relayedRun :=
  ⟨by decide +kernel, senders_are_authentic boundedProto3 nickChangesSurvive_boundedProto3
    (fun _ _ => reparse_envelope) _ _ _ [] (fun _ hr => absurd hr List.not_mem_nil) relayedRun⟩

end Server

end Ircord
