import IrcordServer.Net.FileUploads

/-!
# Whose file a chunk goes to

A chunk is stored for the session that has an entry of its file in `active_uploads_`.  The entry
outlives the row of the file: the cleanup removes the row, and then anybody may create the file
again.  The entries belong to those who created the files as long as nobody creates a file that
another session still has an entry of (`CreatesUnclaimed`).
-/

open Container Run

namespace Ircord

/-- The server with the session that last created each file. -/
structure Custody where
  sv : Server
  creators : UnorderedMap Str SessionId

namespace Server

variable {codec : Codec} {crypto : Crypto} {d : Draws} {sv sv' : Server} {i : Input}
  {s t : SessionId} {x : Session} {fileId : Str}

/-- The session of a file message is there and established, and its read is outstanding. -/
theorem fileMessage_eq_some {m : FileMessage}
    (h : sv.fileMessage codec i = some (s, x, m)) :
    sv.sessions[s]? = some x ∧ x.state = .established ∧ sv.Alive s := by
  unfold fileMessage at h
  split at h
  · rename_i t data hevent
    split_ifs at h with henabled
    rw [hevent] at henabled
    obtain ⟨y, hy, hread⟩ := found_of_any henabled
    obtain ⟨size, reads⟩ := reads_of_readsPayload hread
    obtain ⟨y', hy', h⟩ := Option.bind_eq_some_iff.1 h
    obtain ⟨env, -, h⟩ := Option.bind_eq_some_iff.1 h
    split_ifs at h with hstate
    obtain ⟨m', -, e⟩ := Option.map_eq_some_iff.1 h
    cases e
    cases hy.symm.trans hy'
    refine ⟨hy, hstate, alive_of_outstanding hy (Or.inr (Or.inl ?_))⟩
    rw [reads]
    exact Option.some_ne_none _
  · cases h

/-- The session that creates a file with this step, with its request. -/
def createdBy (codec : Codec) (sv : Server) (i : Input) : Option (SessionId × FileUploadRequest) :=
  match sv.fileMessage codec i with
  | some (s, _, .request req) => if Accepts sv.db req then some (s, req) else none
  | _ => none

/-- A chunk is stored in a file that exists, for an entry of the session. -/
theorem takesChunk_eq_some {db : Database} {now : Time} {chunk : FileUploadChunk}
    {upload : FileUploadState} (h : takesChunk db now x chunk = some upload) :
    x.activeUploads.lookup chunk.fileId = some upload ∧ chunk.fileId ∈ db.files := by
  unfold takesChunk at h
  split_ifs at h
  obtain ⟨hlookup, htest⟩ := Option.filter_eq_some_iff.1 h
  rw [Bool.and_eq_true] at htest
  refine ⟨hlookup, ?_⟩
  rcases FileStore.storeChunk_cases db chunk.fileId chunk.chunkIndex chunk.data with
    e | ⟨-, hmem, -⟩
  · rw [e] at htest
    cases htest.2
  · exact hmem

/-- The session for which the step stores a chunk. -/
def storedFor (codec : Codec) (sv : Server) (i : Input) : Option (Session × FileUploadChunk) :=
  match sv.fileMessage codec i with
  | some (_, x, .chunk chunk) =>
    (takesChunk sv.db i.draws.now x chunk).map fun _ => (x, chunk)
  | _ => none

/-- The session for which the step stores a chunk, with the upload that the chunk belongs to. -/
def storedBy (codec : Codec) (sv : Server) (i : Input) :
    Option (SessionId × FileUploadChunk × FileUploadState) :=
  match sv.fileMessage codec i with
  | some (s, x, .chunk chunk) =>
    (takesChunk sv.db i.draws.now x chunk).map fun upload => (s, chunk, upload)
  | _ => none

theorem createdFile_eq : sv.createdFile codec i = (sv.createdBy codec i).map (·.2) := by
  unfold createdFile createdBy
  rcases sv.fileMessage codec i with _ | ⟨s, x, _ | _ | _⟩
  · rfl
  · dsimp only
    split_ifs <;> rfl
  · rfl
  · rfl

theorem storedChunk_eq : sv.storedChunk codec i = (sv.storedBy codec i).map (·.2) := by
  unfold storedChunk storedBy
  rcases sv.fileMessage codec i with _ | ⟨s, x, _ | _ | _⟩
  · rfl
  · rfl
  · dsimp only
    rw [Option.map_map]
    rfl
  · rfl

/-- The uploads that a session has started. -/
def uploads (sv : Server) (t : SessionId) : UnorderedMap Str FileUploadState :=
  ((sv.sessions[t]?).map (·.activeUploads)).getD ∅

theorem uploads_of_sessions (h : sv.sessions[t]? = some x) : sv.uploads t = x.activeUploads := by
  rw [uploads, h]
  rfl

/-! ## Steps that leave the uploads alone -/

def UploadsKept (sv sv' : Server) : Prop := ∀ t, sv'.uploads t = sv.uploads t

theorem uploads_modify (f : Session → Session) (hf : ∀ x, (f x).activeUploads = x.activeUploads)
    (t : SessionId) : (sv.modify s f).uploads t = sv.uploads t := by
  unfold uploads
  rw [sessions_modify]
  split_ifs
  · rw [Option.map_map]
    exact congrArg (fun g => (Option.map g _).getD ∅) (funext hf)
  · rfl

theorem ignores_uploadsKept : Ignores UploadsKept where
  refl _ _ := rfl
  trans h h' t := (h' t).trans (h t)
  modify _ _ f hf := uploads_modify f hf
  log _ _ _ _ _ := rfl
  rest sv sv' hsessions _ _ t := by rw [uploads, uploads, hsessions]
  relay _ _ _ _ := rfl
  setTables _ _ _ _ _ := rfl
  accept sv t := by
    unfold uploads
    dsimp only
    rw [List.getElem?_append]
    split_ifs with ht
    · rfl
    · rw [List.getElem?_eq_none (not_lt.1 ht)]
      cases t - sv.sessions.length with
      | zero => rfl
      | succ n => rfl

/-! ## What the handlers do to the uploads -/

theorem uploads_sendEnvelope (type : MessageType) (payload : Bytes) :
    UploadsKept sv (sv.sendEnvelope d s type payload) :=
  ignores_uploadsKept.answers sv s type payload

theorem isSome_modify (f : Session → Session) :
    ((sv.modify s f).sessions[t]?).isSome = (sv.sessions[t]?).isSome := by
  rw [sessions_modify]
  split_ifs
  · exact Option.isSome_map
  · rfl

theorem isSome_sendEnvelope (type : MessageType) (payload : Bytes) :
    ((sv.sendEnvelope d s type payload).sessions[t]?).isSome = (sv.sessions[t]?).isSome := by
  unfold sendEnvelope
  split
  · rfl
  · exact (isSome_modify _).trans (isSome_modify _)

/-- A change of the uploads of one session. -/
theorem uploads_modify_ite (hs : (sv.sessions[s]?).isSome = true) {f : Session → Session}
    (g : UnorderedMap Str FileUploadState → UnorderedMap Str FileUploadState)
    (hf : ∀ x, (f x).activeUploads = g x.activeUploads) (t : SessionId) :
    (sv.modify s f).uploads t = if s = t then g (sv.uploads t) else sv.uploads t := by
  unfold uploads
  rw [sessions_modify]
  split_ifs with hst
  · subst hst
    obtain ⟨x, hx⟩ := Option.isSome_iff_exists.1 hs
    rw [hx]
    exact hf x
  · rfl

theorem uploads_handleFileRequest (hs : (sv.sessions[s]?).isSome = true)
    (req : FileUploadRequest) :
    (¬ Accepts sv.db req ∧ UploadsKept sv (sv.handleFileRequest codec d s x req)) ∨
      Accepts sv.db req ∧ ∃ upload : FileUploadState, upload.bytesReceived = 0 ∧
        ∀ t, (sv.handleFileRequest codec d s x req).uploads t =
          if s = t then (sv.uploads t).insert req.fileId upload else sv.uploads t := by
  rcases @handleFileRequest_cases codec d sv s x req with ⟨hrefused, code, message, e⟩ |
    ⟨haccepts, row, db, upload, -, -, -, -, -, hzero, e⟩
  · rw [e]
    exact Or.inl ⟨hrefused, uploads_sendEnvelope _ _⟩
  · refine Or.inr ⟨haccepts, upload, hzero, fun t => ?_⟩
    rw [e, sendFileProgress, uploads_sendEnvelope]
    refine uploads_modify_ite ?_ (·.insert req.fileId upload) (fun _ => rfl) t
    exact hs

theorem uploads_finishUpload (hs : (sv.sessions[s]?).isSome = true) (upload : FileUploadState) :
    (sv.finishUpload codec d s fileId upload).uploads t =
      if s = t then (sv.uploads t).erase fileId else sv.uploads t := by
  have hkept (payload : Bytes) : (({ sv with db := FileStore.markComplete sv.db fileId .null }
      ).sendEnvelope d s .fileComplete payload).uploads t = sv.uploads t :=
    uploads_sendEnvelope _ _ t
  rw [finishUpload_eq, ← hkept]
  refine uploads_modify_ite ?_ (·.erase fileId) (fun _ => rfl) t
  exact (isSome_sendEnvelope _ _).trans hs

/-- The counter of the upload grows by the chunk, and with the last chunk the upload is gone. -/
theorem uploads_handleFileUpload (hs : (sv.sessions[s]?).isSome = true)
    (chunk : FileUploadChunk) :
    (takesChunk sv.db d.now x chunk = none ∧
        UploadsKept sv (sv.handleFileUpload codec d s x chunk)) ∨
      ∃ upload upload', takesChunk sv.db d.now x chunk = some upload ∧
        upload'.bytesReceived = upload.bytesReceived + chunk.data.length ∧
        ∀ t, (sv.handleFileUpload codec d s x chunk).uploads t =
          if s = t then
            if chunk.isLast then ((sv.uploads t).insert chunk.fileId upload').erase chunk.fileId
            else (sv.uploads t).insert chunk.fileId upload'
          else sv.uploads t := by
  have hallow : UploadsKept sv (sv.allowMessage d s x).2 :=
    ignores_uploadsKept.allowMessage (Prod.mk.eta.symm : sv.allowMessage d s x = _)
  have hfound : (((sv.allowMessage d s x).2.sessions[s]?).isSome = true) := by
    unfold allowMessage
    split
    · exact hs
    · exact (isSome_modify _).trans hs
  rcases @handleFileUpload_cases codec d sv s x chunk with ⟨hnone, code, message, e⟩ |
    ⟨upload, upload', sv₁, htakes, hupload, hsv₁, e⟩
  · rw [e]
    refine Or.inl ⟨hnone, fun t => ?_⟩
    rw [sendFileError, uploads_sendEnvelope, hallow]
  · have hstored (t : SessionId) : sv₁.uploads t =
        if s = t then (sv.uploads t).insert chunk.fileId upload' else sv.uploads t := by
      rw [hsv₁, sendFileProgress, uploads_sendEnvelope, ← hallow t]
      refine uploads_modify_ite ?_ (·.insert chunk.fileId upload') (fun _ => rfl) t
      exact hfound
    have hfound₁ : ((sv₁.sessions[s]?).isSome = true) := by
      rw [hsv₁]
      exact (isSome_sendEnvelope _ _).trans ((isSome_modify _).trans hfound)
    refine Or.inr ⟨upload, upload', htakes, by rw [hupload], fun t => ?_⟩
    rw [e]
    by_cases hlast : chunk.isLast = true
    · rw [if_pos hlast, if_pos hlast, uploads_finishUpload hfound₁, hstored]
      split_ifs <;> rfl
    · rw [if_neg hlast, if_neg hlast]
      exact hstored t

theorem uploads_handleFileDownload (req : FileDownloadRequest) :
    UploadsKept sv (sv.handleFileDownload codec d s req) := by
  have hchunks (fileSize totalChunks n i : ℕ) (sv : Server) :
      UploadsKept sv (sendChunks codec d s req.fileId fileSize totalChunks n i sv) := by
    induction n generalizing i sv with
    | zero => exact ignores_uploadsKept.refl sv
    | succ n ih =>
      unfold sendChunks
      split
      · exact uploads_sendEnvelope _ _
      · intro t
        dsimp only
        rw [ih, sendFileProgress, uploads_sendEnvelope, uploads_sendEnvelope]
  unfold handleFileDownload
  split
  · exact uploads_sendEnvelope _ _
  · exact hchunks _ _ _ _ _

/-- What a step does to the uploads of the sessions. -/
inductive UploadStep (codec : Codec) (sv : Server) (i : Input) (sv' : Server) : Prop
  | kept (hcreated : sv.createdBy codec i = none) (hstored : sv.storedBy codec i = none)
      (huploads : UploadsKept sv sv')
  | created (s : SessionId) (req : FileUploadRequest) (upload : FileUploadState)
      (hcreated : sv.createdBy codec i = some (s, req)) (hstored : sv.storedBy codec i = none)
      (hzero : upload.bytesReceived = 0)
      (huploads : ∀ t, sv'.uploads t =
        if s = t then (sv.uploads t).insert req.fileId upload else sv.uploads t)
  | stored (s : SessionId) (chunk : FileUploadChunk) (upload upload' : FileUploadState)
      (hcreated : sv.createdBy codec i = none)
      (hstored : sv.storedBy codec i = some (s, chunk, upload))
      (hentry : (sv.uploads s).lookup chunk.fileId = some upload)
      (hbytes : upload'.bytesReceived = upload.bytesReceived + chunk.data.length)
      (huploads : ∀ t, sv'.uploads t =
        if s = t then
          if chunk.isLast then ((sv.uploads t).insert chunk.fileId upload').erase chunk.fileId
          else (sv.uploads t).insert chunk.fileId upload'
        else sv.uploads t)

/-- Every step does one of these to the uploads. -/
theorem uploadStep (codec : Codec) (crypto : Crypto) (sv : Server) (i : Input) :
    UploadStep codec sv i (step codec crypto sv i) := by
  rcases ignores_uploadsKept.step codec crypto sv i with ⟨hm, hkept⟩ | ⟨hm, db, hstep, -, -⟩ |
    ⟨s, x, m, hm, hx, -, hstep⟩
  · exact .kept (by rw [createdBy, hm]) (by rw [storedBy, hm]) hkept
  · rw [hstep]
    exact .kept (by rw [createdBy, hm]) (by rw [storedBy, hm]) fun _ => rfl
  · have hread : UploadsKept sv (sv.modify s fun x => { x with reading := none }) :=
      uploads_modify _ fun _ => rfl
    have hnext (sv : Server) : UploadsKept sv (sv.doReadFrameHeader s) :=
      (ignores_uploadsKept.tolerates codec).doReadFrameHeader sv s
    have hs : ((sv.modify s fun x => { x with reading := none }).sessions[s]?).isSome = true :=
      (isSome_modify _).trans (Option.isSome_iff_exists.2 ⟨x, hx⟩)
    rw [hstep]
    cases m with
    | request req =>
      have hstored : sv.storedBy codec i = none := by rw [storedBy, hm]
      have hcreated : sv.createdBy codec i = if Accepts sv.db req then some (s, req) else none := by
        rw [createdBy, hm]
      rcases @uploads_handleFileRequest codec i.draws _ s x hs req with
        ⟨hrefused, hkept⟩ | ⟨haccepts, upload, hzero, huploads⟩
      · exact .kept (hcreated.trans (if_neg hrefused)) hstored fun t =>
          (hnext _ t).trans ((hkept t).trans (hread t))
      · refine .created s req upload (hcreated.trans (if_pos haccepts)) hstored hzero fun t => ?_
        rw [← hread t]
        exact (hnext _ t).trans (huploads t)
    | chunk chunk =>
      have hcreated : sv.createdBy codec i = none := by rw [createdBy, hm]
      have hstored : sv.storedBy codec i =
          (takesChunk sv.db i.draws.now x chunk).map fun upload => (s, chunk, upload) := by
        rw [storedBy, hm]
      rcases @uploads_handleFileUpload codec i.draws _ s x hs chunk with
        ⟨hnone, hkept⟩ | ⟨upload, upload', htakes, hbytes, huploads⟩
      · refine .kept hcreated (hstored.trans (congrArg (Option.map _) hnone)) fun t => ?_
        exact (hnext _ t).trans ((hkept t).trans (hread t))
      · refine .stored s chunk upload upload' hcreated
          (hstored.trans (congrArg (Option.map _) htakes)) ?_ hbytes fun t => ?_
        · rw [uploads_of_sessions hx]
          exact (takesChunk_eq_some htakes).1
        · rw [← hread t]
          exact (hnext _ t).trans (huploads t)
    | download req =>
      refine .kept (by rw [createdBy, hm]) (by rw [storedBy, hm]) fun t => ?_
      exact (hnext _ t).trans ((uploads_handleFileDownload req t).trans (hread t))

/-- A session has an entry after a step that it had before, or it creates the file. -/
theorem mem_uploads_step (h : fileId ∈ (step codec crypto sv i).uploads t) :
    fileId ∈ sv.uploads t ∨ ∃ req, sv.createdBy codec i = some (t, req) ∧ req.fileId = fileId := by
  rcases uploadStep codec crypto sv i with ⟨-, -, huploads⟩ |
    ⟨s, req, upload, hcreated, -, -, huploads⟩ |
    ⟨s, chunk, upload, upload', -, -, hentry, -, huploads⟩
  · exact Or.inl (huploads t ▸ h)
  · rw [huploads] at h
    split_ifs at h with hst
    · subst hst
      exact (UnorderedMap.mem_insert_iff.1 h).symm.imp_right fun e => ⟨req, hcreated, e.symm⟩
    · exact Or.inl h
  · rw [huploads] at h
    split_ifs at h with hst hlast
    · exact Or.inl ((UnorderedMap.mem_insert_iff.1 (AList.mem_erase.1 h).2).resolve_left
        (AList.mem_erase.1 h).1)
    · refine Or.inl ((UnorderedMap.mem_insert_iff.1 h).elim (fun e => ?_) id)
      subst hst e
      exact UnorderedMap.mem_iff_lookup.2 ⟨upload, hentry⟩
    · exact Or.inl h

/-! ## Sessions that take no part -/

/-- The session and the registry are as they were. -/
structure Bystander (t : SessionId) (sv sv' : Server) : Prop where
  session : sv'.sessions[t]? = sv.sessions[t]?
  sessionsByUser : sv'.sessionsByUser = sv.sessionsByUser
  usersBySession : sv'.usersBySession = sv.usersBySession

theorem Bystander.trans {sv'' : Server} (h : Bystander t sv sv') (h' : Bystander t sv' sv'') :
    Bystander t sv sv'' where
  session := h'.session.trans h.session
  sessionsByUser := h'.sessionsByUser.trans h.sessionsByUser
  usersBySession := h'.usersBySession.trans h.usersBySession

theorem Bystander.alive (h : Bystander t sv sv') (halive : sv.Alive t) : sv'.Alive t := by
  unfold Alive Registered at halive ⊢
  rwa [h.session, h.sessionsByUser, h.usersBySession]

theorem bystander_modify (hst : s ≠ t) (f : Session → Session) :
    Bystander t sv (sv.modify s f) where
  session := by rw [sessions_modify, if_neg hst]
  sessionsByUser := rfl
  usersBySession := rfl

theorem bystander_sendEnvelope (hst : s ≠ t) (type : MessageType) (payload : Bytes) :
    Bystander t sv (sv.sendEnvelope d s type payload) := by
  have hsend (sv : Server) (env : Envelope) : Bystander t sv (sv.send s env) := by
    obtain ⟨hsession, -, -⟩ : Bystander t sv
        (sv.modify s fun x => { x with writes := x.writes + 1 }) := bystander_modify hst _
    exact ⟨hsession, rfl, rfl⟩
  unfold sendEnvelope
  split
  · exact ⟨rfl, rfl, rfl⟩
  · exact (bystander_modify hst _).trans (hsend _ _)

theorem bystander_handleFileRequest (hst : s ≠ t) (req : FileUploadRequest) :
    Bystander t sv (sv.handleFileRequest codec d s x req) := by
  rcases @handleFileRequest_cases codec d sv s x req with ⟨-, code, message, e⟩ |
    ⟨-, row, db, upload, -, -, -, -, -, -, e⟩
  · rw [e]
    exact bystander_sendEnvelope hst _ _
  · have hdb : Bystander t sv { sv with db := db } := ⟨rfl, rfl, rfl⟩
    rw [e]
    exact (hdb.trans (bystander_modify hst _)).trans (bystander_sendEnvelope hst _ _)

theorem createdBy_eq_some {req : FileUploadRequest} (h : sv.createdBy codec i = some (s, req)) :
    ∃ x, sv.fileMessage codec i = some (s, x, .request req) ∧ Accepts sv.db req := by
  unfold createdBy at h
  split at h
  · rename_i s' x req' hm
    split_ifs at h with haccepts
    cases h
    exact ⟨x, hm, haccepts⟩
  · cases h

theorem createdFile_of_createdBy {req : FileUploadRequest}
    (h : sv.createdBy codec i = some (s, req)) : sv.createdFile codec i = some req := by
  obtain ⟨x, hm, haccepts⟩ := createdBy_eq_some h
  rw [createdFile, hm]
  exact if_pos haccepts

/-- The creation of a file does not concern the other sessions. -/
theorem bystander_of_createdBy (crypto : Crypto) {req : FileUploadRequest}
    (h : sv.createdBy codec i = some (s, req)) (hst : s ≠ t) :
    Bystander t sv (step codec crypto sv i) := by
  obtain ⟨x, hm, -⟩ := createdBy_eq_some h
  rcases ignores_uploadsKept.step codec crypto sv i with ⟨hnone, -⟩ | ⟨hnone, -⟩ |
    ⟨s', x', m', hm', -, -, hstep⟩
  · rw [hm] at hnone
    cases hnone
  · rw [hm] at hnone
    cases hnone
  · cases hm.symm.trans hm'
    rw [hstep]
    exact ((bystander_modify hst _).trans (bystander_handleFileRequest hst req)).trans
      (bystander_modify hst _)

theorem storedBy_eq_some {chunk : FileUploadChunk} {upload : FileUploadState}
    (h : sv.storedBy codec i = some (s, chunk, upload)) :
    (sv.uploads s).lookup chunk.fileId = some upload ∧ chunk.fileId ∈ sv.db.files := by
  unfold storedBy at h
  split at h
  · rename_i s' x chunk' hm
    obtain ⟨upload', htakes, e⟩ := Option.map_eq_some_iff.1 h
    cases e
    rw [uploads_of_sessions (fileMessage_eq_some hm).1]
    exact takesChunk_eq_some htakes
  · cases h

/-- A session that stores a chunk has an entry of the file, which exists. -/
theorem storedFor_eq_some {chunk : FileUploadChunk} (h : sv.storedFor codec i = some (x, chunk)) :
    ∃ s, sv.sessions[s]? = some x ∧ sv.Alive s ∧ chunk.fileId ∈ x.activeUploads ∧
      chunk.fileId ∈ sv.db.files := by
  unfold storedFor at h
  split at h
  · rename_i s x' chunk' hm
    obtain ⟨upload, htakes, e⟩ := Option.map_eq_some_iff.1 h
    cases e
    obtain ⟨hx, -, halive⟩ := fileMessage_eq_some hm
    obtain ⟨hlookup, hfile⟩ := takesChunk_eq_some htakes
    exact ⟨s, hx, halive, UnorderedMap.mem_iff_lookup.2 ⟨upload, hlookup⟩, hfile⟩
  · cases h

/-! ## Rows -/

theorem lookup_of_createdBy (crypto : Crypto) {req : FileUploadRequest}
    (h : sv.createdBy codec i = some (s, req)) :
    ∃ row, (step codec crypto sv i).db.files.lookup req.fileId = some row := by
  have hcreated' := createdFile_of_createdBy h
  rcases fileStep codec crypto sv i with ⟨hcreated, -, -, -⟩ | ⟨hcreated, -, -, -⟩ |
    ⟨req', row, hcreated, -, -, -, -, hfiles, -⟩ | ⟨-, -, hcreated, -, -, -, -⟩
  · rw [hcreated'] at hcreated
    cases hcreated
  · rw [hcreated'] at hcreated
    cases hcreated
  · cases hcreated'.symm.trans hcreated
    rw [hfiles]
    exact ⟨row, AList.lookup_insert _⟩
  · rw [hcreated'] at hcreated
    cases hcreated

/-- The sender that a row names was there before, or is the user that creates the file. -/
theorem senderId_step {row : FileRow}
    (hrow : (step codec crypto sv i).db.files.lookup fileId = some row) :
    (∃ old, sv.db.files.lookup fileId = some old ∧ row.senderId = old.senderId) ∨
      ∃ s x req, sv.createdBy codec i = some (s, req) ∧ req.fileId = fileId ∧
        sv.sessions[s]? = some x ∧ x.state = .established ∧ row.senderId = x.userId := by
  rcases lookup_files_step hrow with hold | ⟨req, hcreated, hid, -, s, x, hm, hsender⟩ |
    ⟨p, -, -, -, old, hold, rfl⟩
  · exact Or.inl ⟨row, hold, rfl⟩
  · obtain ⟨hx, hstate, -⟩ := fileMessage_eq_some hm
    refine Or.inr ⟨s, x, req, ?_, hid, hx, hstate, hsender⟩
    rw [createdBy, hm]
    exact if_pos (accepts_of_createdFile hcreated)
  · exact Or.inl ⟨old, hold, rfl⟩

end Server

namespace Custody

variable {codec : Codec} {crypto : Crypto} {c : Custody} {i : Input} {s t : SessionId}
  {fileId : Str}

def step (codec : Codec) (crypto : Crypto) (c : Custody) (i : Input) : Custody where
  sv := Server.step codec crypto c.sv i
  creators := match c.sv.createdBy codec i with
    | none => c.creators
    | some (s, req) => c.creators.insert req.fileId s

/-- An entry of a file belongs to the session that created the file, and the row of the file names
the user of that session. -/
def Owned (c : Custody) : Prop :=
  ∀ t x fileId row, c.sv.sessions[t]? = some x → c.sv.Alive t → fileId ∈ x.activeUploads →
    c.sv.db.files.lookup fileId = some row →
      c.creators.lookup fileId = some t ∧ row.senderId = x.userId

/-- A chunk is stored for the user that the row of the file names. -/
def StoresOwn (codec : Codec) (c : Custody) (i : Input) : Prop :=
  ∀ x chunk, c.sv.storedFor codec i = some (x, chunk) →
    ∃ row, c.sv.db.files.lookup chunk.fileId = some row ∧ row.senderId = x.userId

/-- No other session has an entry of a file that the step creates. -/
def CreatesUnclaimed (codec : Codec) (c : Custody) (i : Input) : Prop :=
  ∀ s req, c.sv.createdBy codec i = some (s, req) → ∀ t x, t ≠ s → c.sv.Alive t →
    c.sv.sessions[t]? = some x → req.fileId ∉ x.activeUploads

/-! ## Who created a file -/

theorem creators_of_createdBy {req : FileUploadRequest}
    (h : c.sv.createdBy codec i = some (s, req)) :
    (c.step codec crypto i).creators.lookup req.fileId = some s := by
  unfold step
  dsimp only
  rw [h]
  exact AList.lookup_insert _

/-- A file that exists is not created again. -/
theorem creators_of_mem (h : fileId ∈ c.sv.db.files) :
    (c.step codec crypto i).creators.lookup fileId = c.creators.lookup fileId := by
  unfold step
  dsimp only
  split
  · rfl
  · rename_i s req hcreated
    rw [UnorderedMap.lookup_insert_ite, if_neg]
    rintro rfl
    exact (Server.createdBy_eq_some hcreated).elim fun x hx => hx.2.2.2 h

/-- Beside the invariant of the server: the row of a file names the user of the session that created
it. -/
structure Sound (c : Custody) : Prop where
  wellFormed : Server.WellFormed c.sv
  sender : ∀ fileId t row, c.creators.lookup fileId = some t →
    c.sv.db.files.lookup fileId = some row →
      ∃ k, c.sv.core t = some k ∧ k.userId = row.senderId ∧
        (k.state = .established ∨ k.state = .dead)

theorem sound_step (codec : Codec) (crypto : Crypto) (i : Input) (h : Sound c) :
    Sound (c.step codec crypto i) where
  wellFormed := Server.wellFormed_step codec crypto i h.wellFormed
  sender fileId t row hcreator hrow := by
    have hlater {k : SessionCore} (hk : c.sv.core t = some k) (huser : k.userId = row.senderId)
        (hstate : k.state = .established ∨ k.state = .dead) :
        ∃ k, (c.step codec crypto i).sv.core t = some k ∧ k.userId = row.senderId ∧
          (k.state = .established ∨ k.state = .dead) := by
      obtain ⟨k', hk', huser', hstate'⟩ :=
        Server.settled_step codec crypto i h.wellFormed hk hstate
      exact ⟨k', hk', huser'.trans huser, hstate'⟩
    rcases Server.senderId_step hrow with ⟨old, hold, hsender⟩ |
      ⟨s, x, req, hcreated, rfl, hx, hstate, hsender⟩
    · rw [creators_of_mem (UnorderedMap.mem_iff_lookup.2 ⟨old, hold⟩)] at hcreator
      obtain ⟨k, hk, huser, hstate⟩ := h.sender fileId t old hcreator hold
      exact hlater hk (huser.trans hsender.symm) hstate
    · rw [creators_of_createdBy hcreated] at hcreator
      cases hcreator
      exact hlater (Server.core_of_sessions hx) hsender.symm (Or.inl hstate)

/-! ## Who has an entry of it -/

theorem owned_step (hs : Sound c) (h : Owned c) (hunclaimed : CreatesUnclaimed codec c i) :
    Owned (c.step codec crypto i) := by
  intro t x' fileId row' hx' halive' hmem' hrow'
  have hcreator : (c.step codec crypto i).creators.lookup fileId = some t := by
    rw [← Server.uploads_of_sessions hx'] at hmem'
    rcases Server.mem_uploads_step hmem' with hmem | ⟨req, hcreated, rfl⟩
    · obtain ⟨x, hx⟩ : ∃ x, c.sv.sessions[t]? = some x := by
        refine Option.ne_none_iff_exists'.1 fun hnone => ?_
        rw [Server.uploads, hnone] at hmem
        exact AList.notMem_empty _ hmem
      rw [Server.uploads_of_sessions hx] at hmem
      have halive : c.sv.Alive t := by
        by_contra hgone
        exact (Server.not_alive_step codec crypto i hs.wellFormed (Server.core_of_sessions hx)
          hgone).1 halive'
      rcases Server.senderId_step hrow' with ⟨old, hold, -⟩ | ⟨s, y, req, hcreated, rfl, -⟩
      · rw [creators_of_mem (UnorderedMap.mem_iff_lookup.2 ⟨old, hold⟩)]
        exact (h t x fileId old hx halive hmem hold).1
      · rw [creators_of_createdBy hcreated]
        by_contra hts
        have hne : t ≠ s := fun e => hts (congrArg some e.symm)
        exact hunclaimed s req hcreated t x hne halive hx hmem
    · exact creators_of_createdBy hcreated
  obtain ⟨k, hk, huser, -⟩ :=
    (sound_step codec crypto i hs).sender fileId t row' hcreator hrow'
  cases (Server.core_of_sessions hx').symm.trans hk
  exact ⟨hcreator, huser.symm⟩

theorem owned_step_iff (hs : Sound c) (h : Owned c) :
    Owned (c.step codec crypto i) ↔ CreatesUnclaimed codec c i := by
  constructor
  · intro h' s req hcreated t x hts halive hx hmem
    have hby := Server.bystander_of_createdBy crypto hcreated hts.symm
    obtain ⟨row, hrow⟩ := Server.lookup_of_createdBy crypto hcreated
    have howner := (h' t x req.fileId row (hby.session.trans hx) (hby.alive halive) hmem hrow).1
    rw [creators_of_createdBy hcreated] at howner
    exact hts (Option.some.inj howner).symm
  · exact owned_step hs h

/-! ## Runs -/

def start (config : Config) (db : Database) : Custody := ⟨.start config db, ∅⟩

theorem sound_start (config : Config) (db : Database) : Sound (start config db) where
  wellFormed := Server.wellFormed_start config db
  sender _ _ _ h := by cases h

theorem owned_start (config : Config) (db : Database) : Owned (start config db) := by
  intro t x fileId row hx
  cases hx

theorem storesOwn_of_owned (h : Owned c) : StoresOwn codec c i := by
  intro x chunk hstored
  obtain ⟨s, hx, halive, hmem, hfile⟩ := Server.storedFor_eq_some hstored
  obtain ⟨row, hrow⟩ := UnorderedMap.mem_iff_lookup.1 hfile
  exact ⟨row, hrow, (h s x chunk.fileId row hx halive hmem hrow).2⟩

/-- The entries always belong to those who created the files, and nobody stores chunks in the file
of another user, in the runs in which nobody creates a file that another session has an entry of,
and in no others. -/
theorem uploads_owned_iff (codec : Codec) (crypto : Crypto) (config : Config) (db : Database)
    (is : List Input) :
    (AllStates (step codec crypto) Owned (start config db) is ∧
        AllSteps (step codec crypto) (StoresOwn codec) (start config db) is) ↔
      AllSteps (step codec crypto) (CreatesUnclaimed codec) (start config db) is := by
  have hiff : AllStates (step codec crypto) Owned (start config db) is ↔
      AllSteps (step codec crypto) (CreatesUnclaimed codec) (start config db) is :=
    allStates_iff_of_invariant (sound_start config db) (fun _ i h => sound_step codec crypto i h)
      (owned_start config db) fun _ _ hsound howned => owned_step_iff hsound howned
  rw [← hiff]
  constructor
  · exact And.left
  · intro howned
    exact ⟨howned, howned.toSteps fun _ _ h => storesOwn_of_owned h⟩

/-! ## A file of somebody else -/

/-- The cleanup, a week after time zero. -/
def cleanupInput : Input := { Event.cleanup.atZero with
  draws := { Event.cleanup.atZero.draws with nowUnix := FileStore.defaultTtlSeconds } }

/-- `alice` announces a file that expires before she sends it, and `bob` announces one of the same
name. -/
def reclaimedRun : List Input :=
  (loginEvents 0 (str "alice") Server.aliceSignature ++
    Archive.requestEvents 0).map Event.atZero ++ [cleanupInput] ++
  (loginEvents 1 (str "bob") Server.bobSignature ++ Archive.requestEvents 1 ++
    Archive.chunkEvents 0 ⟨str "f", 0, List.replicate 10 1, false⟩).map Event.atZero

/-- The chunk of `alice` is stored in the file of `bob`. -/
theorem not_storesOwn_reclaimedRun :
    ¬ AllSteps (step .proto3 Server.aliceBobCrypto) (StoresOwn .proto3)
      (start ⟨10, 10, 10, []⟩ .empty) reclaimedRun := by
  intro h
  have hstored : ∃ p ∈ (final (step .proto3 Server.aliceBobCrypto) (start ⟨10, 10, 10, []⟩ .empty)
      (reclaimedRun.take 18)).sv.storedFor .proto3 (reclaimedRun.get ⟨18, by decide⟩),
      ∃ row ∈ (final (step .proto3 Server.aliceBobCrypto) (start ⟨10, 10, 10, []⟩ .empty)
        (reclaimedRun.take 18)).sv.db.files.lookup p.2.fileId, row.senderId ≠ p.1.userId := by
    decide +kernel
  obtain ⟨⟨x, chunk⟩, hstored, row, hrow, hwrong⟩ := hstored
  obtain ⟨row', hrow', hsender⟩ := h.after 18 (by decide) x chunk hstored
  cases hrow.symm.trans hrow'
  exact hwrong hsender

end Custody

end Ircord
