import FlCoordinator.Sample
import FlCoordinator.Versions

/-!
# Installation and restarts

`init_ca` writes the federation CA to a directory, and `build_app` loads it from there whenever
the coordinator starts (`flproto/ca.py`, `coordinator/app.py`). The databases and the files stay
over a restart; the revocation list is read back from its file, and the uploads that are being
read are lost.
-/

namespace FlCoordinator

open Lib Handler

section Definitions

/-- The PEM functions of `cryptography` that startup uses. -/
structure Pem where
  loadPemPrivateKey : Bytes → Except PyErr CaKey
  privateKeyPem : CaKey → Bytes
  loadPemCrl : Bytes → Except PyErr Crl

/-- `read_bytes`. -/
def readBytes (files : String → Option Bytes) (path : String) : Except PyErr Bytes :=
  match files path with
  | none => .error .osError
  | some content => .ok content

/-- The keys and certificates that `init_ca` generates: the CA and TLS are on an elliptic curve. -/
structure CaDraw where
  caPriv : Bytes
  caCert : Certificate
  tlsPriv : Bytes
  coordCert : Certificate
  signPriv : Bytes
  now : ℚ

/-- The files that `init_ca` writes, in this order. -/
def initCaWrites (host : Host) (pem : Pem) (caDir : String) (draw : CaDraw) :
    List (String × Bytes) :=
  [(caDir ++ "/ca_key.pem", pem.privateKeyPem (.ec draw.caPriv)),
    (caDir ++ "/ca_cert.pem", encode (host.certificatePem draw.caCert)),
    (caDir ++ "/coordinator_key.pem", pem.privateKeyPem (.ec draw.tlsPriv)),
    (caDir ++ "/coordinator_cert.pem", encode (host.certificatePem draw.coordCert)),
    (caDir ++ "/coordinator_signing_key.pem", pem.privateKeyPem (.ed25519 draw.signPriv)),
    (caDir ++ "/crl.pem", host.crlPem (buildCrl draw.caCert [] draw.now))]

/-- The files after some writes. -/
def writeAll (files : String → Option Bytes) (writes : List (String × Bytes)) :
    String → Option Bytes :=
  writes.foldl (fun fs w => Function.update fs w.1 (some w.2)) files

/-- `init_ca`, which refuses to replace a CA: a `FileExistsError` is an `OSError`. -/
def initCa (host : Host) (pem : Pem) (caDir : String) (draw : CaDraw)
    (files : String → Option Bytes) : Except PyErr (String → Option Bytes) :=
  if (files (caDir ++ "/ca_key.pem")).isSome then .error .osError
  else .ok (writeAll files (initCaWrites host pem caDir draw))

def loadCa (host : Host) (pem : Pem) (files : String → Option Bytes) (caDir : String) :
    Except PyErr (CaKey × Certificate) := do
  let keyPem ← readBytes files (caDir ++ "/ca_key.pem")
  let priv ← pem.loadPemPrivateKey keyPem
  let certPem ← readBytes files (caDir ++ "/ca_cert.pem")
  let cert ← host.loadPemCertificate certPem
  .ok (priv, cert)

/-- `load_coordinator_keypair`, with its fallback for directories of the old layout. -/
def loadCoordinatorKeypair (host : Host) (pem : Pem) (files : String → Option Bytes)
    (caDir : String) : Except PyErr (Bytes × Certificate) := do
  let signingFile :=
    if (files (caDir ++ "/coordinator_signing_key.pem")).isSome then
      caDir ++ "/coordinator_signing_key.pem"
    else caDir ++ "/coordinator_key.pem"
  let keyPem ← readBytes files signingFile
  let priv ← privateKeyFromPem pem.loadPemPrivateKey keyPem
  let certPem ← readBytes files (caDir ++ "/coordinator_cert.pem")
  let cert ← host.loadPemCertificate certPem
  .ok (priv, cert)

def loadCrl (pem : Pem) (files : String → Option Bytes) (caDir : String) : Except PyErr Crl := do
  let crlPem ← readBytes files (caDir ++ "/crl.pem")
  pem.loadPemCrl crlPem

/-- The variables of `build_app` that hold CA material. -/
structure CaMaterial where
  caPriv : Option CaKey := none
  caCert : Option Certificate := none
  coordPriv : Option Bytes := none
  crl : Option Crl := none
  deriving DecidableEq

/-- The `try` of `build_app`: what was assigned before an exception stays. -/
def loadCaMaterial (host : Host) (pem : Pem) (files : String → Option Bytes) (caDir : String) :
    CaMaterial :=
  if (files (caDir ++ "/ca_key.pem")).isNone then {}
  else
    match loadCa host pem files caDir with
    | .error _ => {}
    | .ok (caPriv, caCert) =>
      match loadCoordinatorKeypair host pem files caDir with
      | .error _ => { caPriv := some caPriv, caCert := some caCert }
      | .ok (coordPriv, _) =>
        { caPriv := some caPriv
          caCert := some caCert
          coordPriv := some coordPriv
          crl := (loadCrl pem files caDir).toOption }

/-- The environment variables for directories, where they are set. Two names are two directories. -/
structure Dirs where
  flDataDir : Option String
  flCaDir : Option String
  flModelDir : Option String

namespace Dirs

def data (d : Dirs) : String := d.flDataDir.getD "data/fl_coordinator"

/-- The directory that `build_app` loads the CA from. -/
def ca (d : Dirs) : String := d.flCaDir.getD (d.data ++ "/ca")

/-- The directory that `_regenerate_crl` writes to. -/
def crl (d : Dirs) : String := d.flCaDir.getD "data/ca"

def models (d : Dirs) : String := d.flModelDir.getD (d.data ++ "/models")

end Dirs

/-- A started coordinator. -/
structure Coordinator where
  app : App
  sys : Sys

/-- `build_app` over the databases and the files it finds; `settings` has the settings that no
directory decides. -/
def buildApp (pem : Pem) (dirs : Dirs) (settings : App) (store : Store) (audit : AuditTrail)
    (files : String → Option Bytes) : Coordinator :=
  let m := loadCaMaterial settings.host pem files dirs.ca
  { app :=
      { settings with
        caPriv := m.caPriv
        caCert := m.caCert
        coordPriv := m.coordPriv
        caDir := dirs.crl
        modelDir := dirs.models }
    sys := { world := { store, audit, crl := m.crl, files }, inFlight := [] } }

/-- A request, or a restart between two requests. -/
inductive Happening
  | request (e : Event)
  | restart

def Coordinator.next (pem : Pem) (dirs : Dirs) (h : Happening) (c : Coordinator) : Coordinator :=
  match h with
  | .request e => { c with sys := FlCoordinator.next c.app e c.sys }
  | .restart =>
    buildApp pem dirs c.app c.sys.world.store c.sys.world.audit c.sys.world.files

end Definitions

/-! ### Files and their names -/

section Files

variable {files : String → Option Bytes}

lemma writeAll_of_notMem {path : String} {ws : List (String × Bytes)}
    (h : ∀ w ∈ ws, w.1 ≠ path) : writeAll files ws path = files path := by
  induction ws generalizing files with
  | nil => rfl
  | cons w ws ih =>
    change writeAll (Function.update files w.1 (some w.2)) ws path = files path
    rw [ih (fun v hv => h v (List.mem_cons_of_mem _ hv)),
      Function.update_of_ne (h w List.mem_cons_self).symm]

lemma writeAll_of_mem {path : String} {content : Bytes} {ws : List (String × Bytes)}
    (hnodup : (ws.map Prod.fst).Nodup) (h : (path, content) ∈ ws) :
    writeAll files ws path = some content := by
  induction ws generalizing files with
  | nil => cases h
  | cons w ws ih =>
    obtain ⟨hnot, hrest⟩ := List.nodup_cons.mp hnodup
    change writeAll (Function.update files w.1 (some w.2)) ws path = some content
    rcases List.mem_cons.mp h with rfl | h
    · rw [writeAll_of_notMem, Function.update_self]
      intro v hv heq
      exact hnot (List.mem_map.mpr ⟨v, hv, heq⟩)
    · exact ih hrest h

lemma inDir_ne {dir name name' : String} (h : name ≠ name') : dir ++ name ≠ dir ++ name' := by
  intro heq
  apply h
  have hlist := congrArg String.toList heq
  rw [String.toList_append, String.toList_append] at hlist
  exact String.toList_inj.mp (List.append_cancel_left hlist)

end Files

/-! ### What an event saves -/

section Saves

variable {app : App} {s : Sys}

/-- The CRL that is rebuilt is written and loaded, or neither. -/
def Rewritten (app : App) (w t : World) : Prop :=
  t.files = w.files ∧ t.crl = w.crl ∨
    ∃ crl, t.crl = some crl ∧
      t.files = Function.update w.files (crlPath app) (some (app.host.crlPem crl))

lemma regenerateCrl_rewritten (env : CrlEnv) (w : World) :
    (regenerateCrl app env).wp
      (fun r t => (∃ b, r = .ok b) ∧ t.store = w.store ∧ Rewritten app w t) w := by
  unfold regenerateCrl
  cases app.ca with
  | none => exact ⟨⟨_, rfl⟩, rfl, Or.inl ⟨rfl, rfl⟩⟩
  | some ca =>
    apply wp_query_bind
    by_cases hw : env.writable = true
    · simp only [if_pos hw]
      exact ⟨⟨_, rfl⟩, rfl, Or.inr ⟨_, rfl, rfl⟩⟩
    · simp only [if_neg hw]
      exact ⟨⟨_, rfl⟩, rfl, Or.inl ⟨rfl, rfl⟩⟩

lemma revokeOrg_rewritten (crl : CrlEnv) (user : Option FLUser) (orgId : String)
    (loggedAt : Decimal) (w : World) :
    (revokeOrg app crl user orgId loggedAt).wp (fun _ t => Rewritten app w t) w := by
  unfold revokeOrg
  apply wp_mono (changeStatus_spec (C := Rewritten app) ?_ ?_)
  · rintro r t (⟨-, rfl, -⟩ | ⟨-, -, h⟩)
    · exact Or.inl ⟨rfl, rfl⟩
    · exact h
  · intro v
    apply wp_call_bind (regenerateCrl_rewritten crl v)
    · rintro e t ⟨⟨b, hb⟩, -⟩
      cases hb
    · rintro b t ⟨-, hstore, h⟩
      exact ⟨rfl, hstore, h⟩
  · exact fun v t a b c d h => h

lemma approveRemoval_rewritten (user : Option FLUser) (orgId : String) (env : ApproveEnv)
    (w : World) :
    (approveRemoval app user orgId env).wp (fun _ t => Rewritten app w t) w := by
  have hkept : ∀ t : World, t.files = w.files → t.crl = w.crl → Rewritten app w t :=
    fun t hfiles hcrl => Or.inl ⟨hfiles, hcrl⟩
  unfold approveRemoval
  apply wp_flRequire_bind (fun _ _ => hkept w rfl rfl)
  intro u _ _
  apply wp_query_bind
  apply wp_orRaise_bind (fun _ => hkept w rfl rfl)
  intro org _
  apply wp_ensure_bind (fun _ => hkept w rfl rfl)
  intro _
  apply wp_orRaise_bind (fun _ => hkept w rfl rfl)
  intro coordPriv _
  apply wp_execute_bind
  apply wp_execute_bind
  apply wp_call_bind (regenerateCrl_rewritten env.crl _)
  · rintro e t ⟨⟨b, hb⟩, -⟩
    cases hb
  · rintro b t ⟨-, -, h⟩
    apply wp_log_bind
    exact h

/-- What an event does to the files and the loaded CRL. -/
inductive Saves (app : App) (w t : World) : Prop
  | kept (files : t.files = w.files) (crl : t.crl = w.crl)
  | json (path : String) (content : Bytes) (name : path.toList.reverse.head? = some 'n')
      (files : t.files = Function.update w.files path (some content)) (crl : t.crl = w.crl)
  | crl (crl : Crl) (loaded : t.crl = some crl)
      (files : t.files = Function.update w.files (crlPath app) (some (app.host.crlPem crl)))

lemma saves_of_rewritten {w t : World} (h : Rewritten app w t) : Saves app w t := by
  rcases h with ⟨hfiles, hcrl⟩ | ⟨crl, hcrl, hfiles⟩
  · exact .kept hfiles hcrl
  · exact .crl crl hcrl hfiles

lemma contributionPath_last (modelDir : String) (k : ℤ) (orgId sha : String) :
    (contributionPath modelDir k orgId sha).toList.reverse.head? = some 'n' := by
  simp [contributionPath_toList]

lemma roundModelPath_last (modelDir : String) (k : ℤ) :
    (roundModelPath modelDir k).toList.reverse.head? = some 'n' := by
  simp [roundModelPath_toList]

theorem next_saves (app : App) (s : Sys) (e : Event) :
    Saves app s.world (next app e s).world := by
  have hcrl : e.crlEnv = none → (next app e s).world.crl = s.world.crl :=
    (next_effect app s e).crl
  cases e with
  | enroll user body env =>
    rcases enrollOrg_spec app s.world user body env with ⟨-, h⟩ | ⟨-, -, -, h⟩
    · exact .kept (congrArg World.files h) (hcrl rfl)
    · exact .kept h (hcrl rfl)
  | mintToken user body env =>
    rcases mintEnrollToken_spec app s.world user body env with ⟨-, h⟩ | ⟨-, -, -, h⟩
    · exact .kept (congrArg World.files h) (hcrl rfl)
    · exact .kept h (hcrl rfl)
  | redeemToken body env =>
    exact .kept (enrollWithToken_spec app s.world body env).2.1 (hcrl rfl)
  | block user orgId t =>
    rcases blockOrg_spec app s.world user orgId t with ⟨-, h, -⟩ | ⟨-, -, -, h⟩
    · exact .kept (congrArg World.files h) (hcrl rfl)
    · exact .kept h (hcrl rfl)
  | unblock user orgId t =>
    rcases unblockOrg_spec app s.world user orgId t with ⟨-, h, -⟩ | ⟨-, -, -, h⟩
    · exact .kept (congrArg World.files h) (hcrl rfl)
    · exact .kept h (hcrl rfl)
  | revoke user orgId crl t => exact saves_of_rewritten (revokeOrg_rewritten crl user orgId t _)
  | leaveRequest req orgId body env =>
    exact .kept (orgLeaveRequest_spec app s.world req orgId body env).2.1 (hcrl rfl)
  | approveRemoval user orgId env =>
    exact saves_of_rewritten (approveRemoval_rewritten user orgId env _)
  | startRound user body env =>
    exact .kept (startRound_spec app s.world user body env).2.1 (hcrl rfl)
  | challenge req roundId env =>
    exact .kept (issueRoundChallenge_spec app s.world req roundId env).2.1 (hcrl rfl)
  | contribute c => exact .kept (congrArg World.files (next_contribute_world app s c)) (hcrl rfl)
  | resume i env =>
    simp only [next] at hcrl ⊢
    cases hp : s.inFlight[i]? with
    | none => exact .kept rfl rfl
    | some p =>
      rw [hp] at hcrl
      have hspec : FinishOutcome app p env s.world (contributeFinish app p env s.world).1
          (contributeFinish app p env s.world).2 := contributeFinish_spec
      dsimp only at hcrl ⊢
      generalize (contributeFinish app p env s.world).1 = r at hspec
      generalize (contributeFinish app p env s.world).2 = t at hspec hcrl ⊢
      have hupload := contributionPath_last app.modelDir p.roundId p.orgId
        (app.host.sha256hex p.upload)
      cases hspec with
      | refused e no => exact .kept rfl rfl
      | burned e t no burnt consumes store files crl =>
        rcases files with hfiles | hfiles
        · exact .kept hfiles crl
        · exact .json _ _ hupload hfiles crl
      | rejected e t no burnt n consumes store files crl => exact .kept files crl
      | accepted resp t chal n evidence store files crl => exact .json _ _ hupload files crl
  | aggregate user roundId env =>
    rcases aggregateRound_spec app s.world user roundId env with
      ⟨-, -, -, hfiles, -⟩ | ⟨resp, -, ⟨done⟩⟩
    · exact .kept hfiles (hcrl rfl)
    · refine .json _ done.bytes (roundModelPath_last app.modelDir roundId) ?_ (hcrl rfl)
      rw [← done.scored.frame.2.1]
      exact done.files
  | publish user roundId env =>
    exact .kept (publishRoundModel_spec app s.world user roundId env).2.1 (hcrl rfl)
  | rollback user versionId env =>
    exact .kept (rollbackGlobalModel_spec app s.world user versionId env).2.1 (hcrl rfl)

lemma json_ne_pem {path name : String} (dir : String)
    (hjson : path.toList.reverse.head? = some 'n') (hpem : name.toList.reverse.head? = some 'm') :
    path ≠ dir ++ name := by
  intro heq
  rw [heq, String.toList_append, List.reverse_append, List.head?_append, hpem] at hjson
  exact absurd (Option.some.inj hjson) (by decide)

lemma pemFile_next {dir name : String} (hname : name.toList.reverse.head? = some 'm')
    (hcrl : dir ++ name ≠ crlPath app) (e : Event) :
    (next app e s).world.files (dir ++ name) = s.world.files (dir ++ name) := by
  cases next_saves app s e with
  | kept files crl => rw [files]
  | json path content json files crl =>
    rw [files, Function.update_of_ne (json_ne_pem dir json hname).symm]
  | crl crl loaded files => rw [files, Function.update_of_ne hcrl]

end Saves

/-! ### Starting from an installation -/

section Startup

variable {host : Host} {pem : Pem} {dirs : Dirs} {draw : CaDraw} {files : String → Option Bytes}

/-- What PEM encodes can be loaded again. -/
structure PemSound (host : Host) (pem : Pem) (draw : CaDraw) : Prop where
  privateKey : ∀ k, pem.loadPemPrivateKey (pem.privateKeyPem k) = .ok k
  crl : ∀ crl, pem.loadPemCrl (host.crlPem crl) = .ok crl
  caCert : host.loadPemCertificate (encode (host.certificatePem draw.caCert)) = .ok draw.caCert
  coordCert : host.loadPemCertificate (encode (host.certificatePem draw.coordCert)) =
    .ok draw.coordCert

/-- The directory has the keys and certificates of an installation. -/
def HasKeys (host : Host) (pem : Pem) (dirs : Dirs) (draw : CaDraw)
    (files : String → Option Bytes) : Prop :=
  ∀ w ∈ (initCaWrites host pem dirs.ca draw).take 5, files w.1 = some w.2

lemma initCaWrites_nodup (caDir : String) :
    ((initCaWrites host pem caDir draw).map Prod.fst).Nodup := by
  simp only [initCaWrites, List.map_cons, List.map_nil, List.nodup_cons, List.mem_cons,
    List.not_mem_nil, or_false, not_or, not_false_eq_true, List.nodup_nil, and_true]
  refine ⟨⟨?_, ?_, ?_, ?_, ?_⟩, ⟨?_, ?_, ?_, ?_⟩, ⟨?_, ?_, ?_⟩, ⟨?_, ?_⟩, ?_⟩
  all_goals exact inDir_ne (by decide)

lemma hasKeys_writeAll :
    HasKeys host pem dirs draw (writeAll files (initCaWrites host pem dirs.ca draw)) :=
  fun _ hw => writeAll_of_mem (initCaWrites_nodup dirs.ca) (List.mem_of_mem_take hw)

lemma loadCaMaterial_installed (hsound : PemSound host pem draw)
    (hkeys : HasKeys host pem dirs draw files) :
    loadCaMaterial host pem files dirs.ca =
      { caPriv := some (.ec draw.caPriv), caCert := some draw.caCert, coordPriv := some draw.signPriv,
        crl := (loadCrl pem files dirs.ca).toOption } := by
  have hfiles : files (dirs.ca ++ "/ca_key.pem") = some (pem.privateKeyPem (.ec draw.caPriv)) ∧
      files (dirs.ca ++ "/ca_cert.pem") = some (encode (host.certificatePem draw.caCert)) ∧
      files (dirs.ca ++ "/coordinator_key.pem") = some (pem.privateKeyPem (.ec draw.tlsPriv)) ∧
      files (dirs.ca ++ "/coordinator_cert.pem") =
        some (encode (host.certificatePem draw.coordCert)) ∧
      files (dirs.ca ++ "/coordinator_signing_key.pem") =
        some (pem.privateKeyPem (.ed25519 draw.signPriv)) := by
    simpa [HasKeys, initCaWrites] using hkeys
  obtain ⟨hkey, hcert, -, hcoordCert, hsign⟩ := hfiles
  have hca : loadCa host pem files dirs.ca = .ok (.ec draw.caPriv, draw.caCert) := by
    simp only [loadCa, readBytes, hkey, hcert, hsound.privateKey, hsound.caCert, bind, Except.bind]
  have hcoord : loadCoordinatorKeypair host pem files dirs.ca =
      .ok (draw.signPriv, draw.coordCert) := by
    simp only [loadCoordinatorKeypair, readBytes, hsign, hcoordCert, hsound.coordCert,
      Option.isSome_some, if_true, privateKeyFromPem, hsound.privateKey, bind, Except.bind]
  rw [loadCaMaterial, hkey, if_neg (by simp)]
  simp only [hca, hcoord]

lemma loadCrl_of_file (hsound : PemSound host pem draw) {crl : Crl} {caDir : String}
    (h : files (caDir ++ "/crl.pem") = some (host.crlPem crl)) :
    loadCrl pem files caDir = .ok crl := by
  simp only [loadCrl, readBytes, h, hsound.crl, bind, Except.bind]

lemma name_ne_crl {dir dir' name : String} (hlong : 8 ≤ name.toList.length)
    (hname : name.toList.reverse.take 8 ≠ "/crl.pem".toList.reverse) :
    dir ++ name ≠ dir' ++ "/crl.pem" := by
  intro heq
  apply hname
  have hlist := congrArg (fun f : String => f.toList.reverse.take 8) heq
  simp only [String.toList_append, List.reverse_append] at hlist
  rw [List.take_append_of_le_length (by rw [List.length_reverse]; exact hlong),
    List.take_append_of_le_length (by decide)] at hlist
  exact hlist

/-- A coordinator of the installation: its app, the keys on disk, and the file of its CRL. -/
structure Installed (pem : Pem) (dirs : Dirs) (draw : CaDraw) (settings : App) (c : Coordinator) :
    Prop where
  app : c.app =
    { settings with
      caPriv := some (.ec draw.caPriv)
      caCert := some draw.caCert
      coordPriv := some draw.signPriv
      caDir := dirs.crl
      modelDir := dirs.models }
  keys : HasKeys settings.host pem dirs draw c.sys.world.files
  crl : ∃ crl, c.sys.world.files (dirs.ca ++ "/crl.pem") = some (settings.host.crlPem crl) ∧
    if dirs.crl = dirs.ca then c.sys.world.crl = some crl
    else crl = buildCrl draw.caCert [] draw.now

namespace Installed

variable {settings : App} {c : Coordinator}

lemma of_initCa (hsound : PemSound settings.host pem draw) {files' : String → Option Bytes}
    (hinit : initCa settings.host pem dirs.ca draw files = .ok files') (store : Store)
    (audit : AuditTrail) :
    Installed pem dirs draw settings (buildApp pem dirs settings store audit files') ∧
      (buildApp pem dirs settings store audit files').sys.world.crl =
        some (buildCrl draw.caCert [] draw.now) := by
  rw [initCa] at hinit
  split_ifs at hinit
  obtain rfl := Except.ok.inj hinit
  have hkeys : HasKeys settings.host pem dirs draw
    (writeAll files (initCaWrites settings.host pem dirs.ca draw)) := hasKeys_writeAll
  have hcrl : writeAll files (initCaWrites settings.host pem dirs.ca draw)
      (dirs.ca ++ "/crl.pem") =
      some (settings.host.crlPem (buildCrl draw.caCert [] draw.now)) :=
    writeAll_of_mem (initCaWrites_nodup dirs.ca) (by simp [initCaWrites])
  have hloaded := loadCaMaterial_installed hsound hkeys
  rw [loadCrl_of_file hsound hcrl] at hloaded
  constructor
  · constructor
    · rw [buildApp, hloaded]
    · exact hkeys
    · refine ⟨_, hcrl, ?_⟩
      split_ifs
      · rw [buildApp, hloaded]
        rfl
      · rfl
  · rw [buildApp, hloaded]
    rfl

lemma buildApp_eq (hsound : PemSound settings.host pem draw)
    (h : Installed pem dirs draw settings c) :
    c.next pem dirs .restart =
      { app := c.app
        sys :=
          { world :=
              { c.sys.world with
                crl := if dirs.crl = dirs.ca then c.sys.world.crl
                  else some (buildCrl draw.caCert [] draw.now) }
            inFlight := [] } } := by
  obtain ⟨crl, hfile, hcrl⟩ := h.crl
  have hhost : c.app.host = settings.host := by rw [h.app]
  have hloaded := loadCaMaterial_installed hsound h.keys
  rw [loadCrl_of_file hsound hfile] at hloaded
  have hmem : (Except.ok crl : Except PyErr Crl).toOption =
      if dirs.crl = dirs.ca then c.sys.world.crl
      else some (buildCrl draw.caCert [] draw.now) := by
    split_ifs at hcrl ⊢ with hdirs
    · exact hcrl.symm
    · rw [hcrl]
      rfl
  rw [Coordinator.next, buildApp, hhost, hloaded, hmem, h.app]

lemma request (h : Installed pem dirs draw settings c) (e : Event) :
    Installed pem dirs draw settings (c.next pem dirs (.request e)) := by
  have hpath : crlPath c.app = dirs.crl ++ "/crl.pem" := by rw [crlPath, h.app]
  constructor
  · exact h.app
  · intro w hw
    rw [← h.keys w hw]
    have hname : ∃ name, w.1 = dirs.ca ++ name ∧ name.toList.reverse.head? = some 'm' ∧
        8 ≤ name.toList.length ∧ name.toList.reverse.take 8 ≠ "/crl.pem".toList.reverse := by
      simp only [initCaWrites, List.take_succ_cons, List.take_zero, List.mem_cons,
        List.not_mem_nil, or_false] at hw
      rcases hw with rfl | rfl | rfl | rfl | rfl
      all_goals exact ⟨_, rfl, by decide, by decide, by decide⟩
    obtain ⟨name, hw1, hpem, hlong, hcrl⟩ := hname
    rw [hw1]
    exact pemFile_next hpem (hpath ▸ name_ne_crl hlong hcrl) e
  · obtain ⟨crl, hfile, hcrl⟩ := h.crl
    by_cases hdirs : dirs.crl = dirs.ca
    · rw [if_pos hdirs] at hcrl
      simp only [if_pos hdirs]
      rw [hdirs] at hpath
      have hhost : c.app.host = settings.host := by rw [h.app]
      simp only [Coordinator.next]
      cases next_saves c.app c.sys e with
      | kept files loaded => exact ⟨crl, files ▸ hfile, loaded ▸ hcrl⟩
      | json path content json files loaded =>
        refine ⟨crl, ?_, loaded ▸ hcrl⟩
        rw [files, Function.update_of_ne (json_ne_pem dirs.ca json (by decide)).symm, hfile]
      | crl new loaded files =>
        refine ⟨new, ?_, loaded⟩
        rw [files, hpath, hhost, Function.update_self]
    · rw [if_neg hdirs] at hcrl
      simp only [if_neg hdirs]
      refine ⟨crl, ?_, hcrl⟩
      rw [← hfile]
      apply pemFile_next (by decide)
      intro heq
      rw [hpath] at heq
      have hlist := congrArg String.toList heq
      rw [String.toList_append, String.toList_append] at hlist
      exact hdirs (String.toList_inj.mp (List.append_cancel_right hlist)).symm

lemma next (hsound : PemSound settings.host pem draw) (h : Installed pem dirs draw settings c)
    (a : Happening) : Installed pem dirs draw settings (c.next pem dirs a) := by
  cases a with
  | request e => exact h.request e
  | restart =>
    rw [h.buildApp_eq hsound]
    obtain ⟨crl, hfile, hcrl⟩ := h.crl
    constructor
    · exact h.app
    · exact h.keys
    · refine ⟨crl, hfile, ?_⟩
      by_cases hdirs : dirs.crl = dirs.ca
      · rw [if_pos hdirs] at hcrl ⊢
        simp only [if_pos hdirs]
        exact hcrl
      · rw [if_neg hdirs] at hcrl ⊢
        exact hcrl

end Installed

end Startup

/-! ### A transparent disk -/

namespace Sample

def crlJson (crl : Crl) : Json :=
  .arr [.str crl.issuer, .int crl.lastUpdate.num, .int crl.lastUpdate.den, .int crl.nextUpdate.num,
    .int crl.nextUpdate.den, .arr (crl.revoked.map .int)]

def readCrl (b : Bytes) : Except PyErr Crl :=
  match Json.loads b with
  | .ok (.arr [.str issuer, .int a, .int b, .int c, .int d, .arr serials]) =>
    .ok
      { issuer
        lastUpdate := a / b
        nextUpdate := c / d
        revoked := serials.filterMap (fun v => match v with | .int n => some n | _ => none) }
  | _ => .error (.valueError "crl")

lemma readCrl_crlJson (crl : Crl) : readCrl (Json.dumpsBytes (crlJson crl)) = .ok crl := by
  have hplain : Json.Plain (crlJson crl) := by
    apply Json.plain_arr.mpr
    intro v hv
    simp only [List.mem_cons, List.not_mem_nil, or_false] at hv
    rcases hv with rfl | rfl | rfl | rfl | rfl | rfl
    · trivial
    · trivial
    · trivial
    · trivial
    · trivial
    · apply Json.plain_arr.mpr
      intro v hv
      obtain ⟨n, -, rfl⟩ := List.mem_map.mp hv
      trivial
  have hserials : (crl.revoked.map Json.int).filterMap
      (fun v => match v with | .int n => some n | _ => none) = crl.revoked := by
    rw [List.filterMap_map]
    exact List.filterMap_some
  rw [readCrl, Json.loads_dumpsBytes hplain]
  simp only [crlJson, hserials]
  congr
  · exact_mod_cast Rat.num_div_den crl.lastUpdate
  · exact_mod_cast Rat.num_div_den crl.nextUpdate

/-- A key file has a letter for the type, and the key. -/
def readKey : Bytes → Except PyErr CaKey
  | 0 :: raw => .ok (.ed25519 raw)
  | 1 :: raw => .ok (.ec raw)
  | _ => .error (.valueError "key")

def keyFile : CaKey → Bytes
  | .ed25519 raw => 0 :: raw
  | .ec raw => 1 :: raw

def pem : Pem := ⟨readKey, keyFile, readCrl⟩

def diskApp : App :=
  { app with host := { host with crlPem := fun crl => Json.dumpsBytes (crlJson crl) } }

def draw : CaDraw where
  caPriv := caKey
  caCert
  tlsPriv := [4]
  coordCert := caCert
  signPriv := coordKey
  now := 0

lemma pem_sound : PemSound diskApp.host pem draw where
  privateKey k := by cases k <;> rfl
  crl := readCrl_crlJson
  caCert := by decide +kernel
  coordCert := by decide +kernel

/-- The environment sets no directory. -/
def defaultDirs : Dirs := ⟨none, none, none⟩

/-- The directories of the compose file. -/
def composeDirs : Dirs := ⟨some "/app/data", some "/app/data/ca", none⟩

/-- The files that `init_ca` leaves on an empty disk. -/
def disk (dirs : Dirs) : String → Option Bytes :=
  writeAll (fun _ => none) (initCaWrites diskApp.host pem dirs.ca draw)

lemma initCa_disk (dirs : Dirs) :
    initCa diskApp.host pem dirs.ca draw (fun _ => none) = .ok (disk dirs) := rfl

abbrev started (dirs : Dirs) : Coordinator :=
  buildApp pem dirs diskApp Store.empty AuditTrail.empty (disk dirs)

/-- An upload is lost in a restart, the org uploads again, and is revoked. -/
def interruptedUpload : List Happening :=
  [.request (enroll "x" [1] 11), .request (start none), .request (challenge "a" (certOf "x" [1] 11)),
    .request (contribute "x" "a" [1] 11 model), .restart,
    .request (challenge "b" (certOf "x" [1] 11)), .request (contribute "x" "b" [1] 11 model),
    .request resume, .request (revoke "x")]

end Sample

/-! ### An interrupted installation -/

section Interrupted

variable {host : Host} {pem : Pem} {draw : CaDraw} {files : String → Option Bytes} {caDir : String}

/-- The files when `init_ca` stops after `k` of its writes. -/
def interruptedDisk (host : Host) (pem : Pem) (caDir : String) (draw : CaDraw)
    (files : String → Option Bytes) (k : ℕ) : String → Option Bytes :=
  writeAll files ((initCaWrites host pem caDir draw).take k)

lemma interruptedDisk_file (k : ℕ) {i : ℕ} {path : String} {content : Bytes}
    (hi : (initCaWrites host pem caDir draw)[i]? = some (path, content))
    (hfresh : files path = none) :
    interruptedDisk host pem caDir draw files k path = if i < k then some content else none := by
  have hnodup : ((initCaWrites host pem caDir draw).map Prod.fst).Nodup := initCaWrites_nodup caDir
  split_ifs with hk
  · apply writeAll_of_mem
    · rw [List.map_take]
      exact hnodup.sublist (List.take_sublist k _)
    · apply List.mem_of_getElem? (i := i)
      rw [List.getElem?_take_of_lt hk, hi]
  · rw [interruptedDisk, writeAll_of_notMem, hfresh]
    intro w hw heq
    obtain ⟨j, hj⟩ := List.mem_iff_getElem?.mp hw
    rw [List.getElem?_take] at hj
    split_ifs at hj with hjk
    have hpaths : ((initCaWrites host pem caDir draw).map Prod.fst)[j]? =
        ((initCaWrites host pem caDir draw).map Prod.fst)[i]? := by
      rw [List.getElem?_map, List.getElem?_map, hj, hi, Option.map_some, Option.map_some, heq]
    have hlen : j < ((initCaWrites host pem caDir draw).map Prod.fst).length := by
      rw [List.length_map]
      exact (List.getElem?_eq_some_iff.mp hj).1
    have hij := (List.getElem?_inj hlen hnodup).mp hpaths
    omega

/-- Where `init_ca` stops, it leaves an unusable directory, a CA without a signing key, keys
without a CRL, or the installation; and it is never run a second time. -/
theorem interrupted_initCa (hsound : PemSound host pem draw)
    (hfresh : ∀ w ∈ initCaWrites host pem caDir draw, files w.1 = none) (k : ℕ) :
    (∀ draw', (∃ e, initCa host pem caDir draw' (interruptedDisk host pem caDir draw files k) =
        .error e) ↔ 0 < k) ∧
      loadCaMaterial host pem (interruptedDisk host pem caDir draw files k) caDir =
        { caPriv := if 1 < k then some (.ec draw.caPriv) else none
          caCert := if 1 < k then some draw.caCert else none
          coordPriv := if 4 < k then some draw.signPriv else none
          crl := if 5 < k then some (buildCrl draw.caCert [] draw.now) else none } := by
  have hfresh' : ∀ (i : ℕ) (path : String) (content : Bytes),
      (initCaWrites host pem caDir draw)[i]? = some (path, content) →
      interruptedDisk host pem caDir draw files k path = if i < k then some content else none :=
    fun i path content hi =>
      interruptedDisk_file k hi (hfresh (path, content) (List.mem_of_getElem? hi))
  have hkey := hfresh' 0 _ _ rfl
  have hcert := hfresh' 1 _ _ rfl
  have htls := hfresh' 2 _ _ rfl
  have hcoordCert := hfresh' 3 _ _ rfl
  have hsign := hfresh' 4 _ _ rfl
  have hcrl := hfresh' 5 _ _ rfl
  constructor
  · intro draw'
    rw [initCa, hkey]
    by_cases hk : 0 < k
    · simp [hk]
    · simp [hk]
  rw [loadCaMaterial, hkey]
  by_cases h1 : 1 < k
  · have hca : loadCa host pem (interruptedDisk host pem caDir draw files k) caDir =
        .ok (.ec draw.caPriv, draw.caCert) := by
      have h0 : 0 < k := by omega
      simp only [loadCa, readBytes, hkey, hcert, if_pos h0, if_pos h1, hsound.privateKey,
        hsound.caCert, bind, Except.bind]
    rw [if_pos (show 0 < k by omega), if_neg (by simp), hca, if_pos h1, if_pos h1]
    by_cases h4 : 4 < k
    · have h3 : 3 < k := by omega
      have hcoord : loadCoordinatorKeypair host pem (interruptedDisk host pem caDir draw files k)
          caDir = .ok (draw.signPriv, draw.coordCert) := by
        simp only [loadCoordinatorKeypair, readBytes, hsign, hcoordCert, hsound.coordCert,
          if_pos h4, if_pos h3, Option.isSome_some, if_true, privateKeyFromPem, hsound.privateKey,
          bind, Except.bind]
      simp only [hcoord, if_pos h4]
      by_cases h5 : 5 < k
      · rw [if_pos h5] at hcrl ⊢
        rw [loadCrl_of_file hsound hcrl]
        rfl
      · rw [if_neg h5] at hcrl ⊢
        simp only [loadCrl, readBytes, hcrl, bind, Except.bind]
        rfl
    · -- The TLS key in its place is no Ed25519 key.
      have hcoord : ∃ e, loadCoordinatorKeypair host pem
          (interruptedDisk host pem caDir draw files k) caDir = .error e := by
        rw [if_neg h4] at hsign
        by_cases h2 : 2 < k
        · rw [if_pos h2] at htls
          refine ⟨.valueError "Not an Ed25519 private key", ?_⟩
          simp [loadCoordinatorKeypair, readBytes, hsign, htls, privateKeyFromPem,
            hsound.privateKey, bind, Except.bind]
        · rw [if_neg h2] at htls
          refine ⟨.osError, ?_⟩
          simp [loadCoordinatorKeypair, readBytes, hsign, htls, bind, Except.bind]
      obtain ⟨e, he⟩ := hcoord
      have h5 : ¬5 < k := by omega
      simp only [he, if_neg h4, if_neg h5]
  · have h4 : ¬4 < k := by omega
    have h5 : ¬5 < k := by omega
    simp only [if_neg h1, if_neg h4, if_neg h5]
    by_cases h0 : 0 < k
    · have hca : loadCa host pem (interruptedDisk host pem caDir draw files k) caDir =
          .error .osError := by
        simp only [loadCa, readBytes, hkey, hcert, if_pos h0, if_neg h1, hsound.privateKey, bind,
          Except.bind]
      simp [h0, hca]
    · simp [h0]

/-- After three writes there is a CA, and no key that signs models. -/
theorem interrupted_initCa_twoKeys :
    (∃ e, initCa Sample.diskApp.host Sample.pem "ca" Sample.draw
      (interruptedDisk Sample.diskApp.host Sample.pem "ca" Sample.draw (fun _ => none) 3) =
        .error e) ∧
      loadCaMaterial Sample.diskApp.host Sample.pem
        (interruptedDisk Sample.diskApp.host Sample.pem "ca" Sample.draw (fun _ => none) 3) "ca" =
        { caPriv := some (.ec Sample.draw.caPriv), caCert := some Sample.draw.caCert } := by
  have h := @interrupted_initCa Sample.diskApp.host Sample.pem Sample.draw (fun _ => none) "ca"
    Sample.pem_sound (fun _ _ => rfl) 3
  exact ⟨(h.1 Sample.draw).mpr (by decide), h.2⟩

end Interrupted

/-! ### A run with restarts is a run without -/

section Refinement

variable {host : Host} {pem : Pem} {dirs : Dirs} {draw : CaDraw} {settings : App}

/-- The same event where `n` uploads that nobody resumes come first. -/
def Event.shift (n : ℕ) : Event → Event
  | .resume i env => .resume (n + i) env
  | e => e

lemma getElem?_lost {lost inFlight : List Pending} (i : ℕ) :
    (lost ++ inFlight)[lost.length + i]? = inFlight[i]? := by
  rw [List.getElem?_append_right (by omega)]
  congr 1
  omega

lemma eraseIdx_lost {lost inFlight : List Pending} (i : ℕ) :
    (lost ++ inFlight).eraseIdx (lost.length + i) = lost ++ inFlight.eraseIdx i := by
  rw [List.eraseIdx_append_of_length_le (by omega)]
  congr 2
  omega

/-- Lost uploads in front change nothing for the others. -/
lemma next_shift (app : App) (w : World) (lost inFlight : List Pending) (e : Event) :
    next app (e.shift lost.length) ⟨w, lost ++ inFlight⟩ =
      ⟨(next app e ⟨w, inFlight⟩).world, lost ++ (next app e ⟨w, inFlight⟩).inFlight⟩ := by
  cases e with
  | resume i env =>
    simp only [Event.shift, next, getElem?_lost]
    cases inFlight[i]? with
    | none => rfl
    | some p => simp only [eraseIdx_lost]
  | contribute c =>
    simp only [Event.shift, next]
    rcases contributeStart app c w with ⟨r, t⟩
    cases r with
    | error e => rfl
    | ok p => simp only [List.append_assoc]
  | _ => rfl

/-- The requests of a happening, after any number of lost uploads. -/
inductive Happening.Requests : Happening → List Event → Prop
  | restart : Requests .restart []
  | request (e : Event) (lost : ℕ) : Requests (.request e) [e.shift lost]

/-- Over every run from an installation, wherever restarts come in between, the coordinator has the
keys it was installed with and the databases, files and CRL that the same requests leave without a
restart. All that a restart loses are the uploads that were being read. -/
theorem restarts_refine (hsound : PemSound settings.host pem draw) (hdirs : dirs.crl = dirs.ca)
    {files files' : String → Option Bytes}
    (hinit : initCa settings.host pem dirs.ca draw files = .ok files') {store : Store}
    {audit : AuditTrail} {hs : List Happening} {c d : Coordinator}
    (hstart : buildApp pem dirs settings store audit files' = c)
    (hrun : Lib.run (Coordinator.next pem dirs) c hs = d) :
    ∃ ess lost, List.Forall₂ Happening.Requests hs ess ∧ d.app = c.app ∧
      Lib.run (next c.app) c.sys ess.flatten = ⟨d.sys.world, lost ++ d.sys.inFlight⟩ := by
  have hinstalled : Installed pem dirs draw settings c :=
    hstart ▸ (Installed.of_initCa hsound hinit store audit).1
  have hsim := run_simulation (Coordinator.next pem dirs) (next c.app)
    (R := fun d s => Installed pem dirs draw settings d ∧ d.app = c.app ∧
      ∃ lost, s = ⟨d.sys.world, lost ++ d.sys.inFlight⟩)
    (M := fun p => Happening.Requests p.2) ?_ (t := c.sys) ⟨hinstalled, rfl, [], rfl⟩ hs
  · rw [hrun] at hsim
    obtain ⟨ess, hess, -, happ, lost, hlost⟩ := hsim
    have hrequests := List.forall₂_map_left_iff.mpr hess
    rw [visits_events] at hrequests
    exact ⟨ess, lost, hrequests, happ, hlost⟩
  rintro d s a ⟨h, happ, lost, rfl⟩
  cases a with
  | request e =>
    refine ⟨[e.shift lost.length], .request e _, h.request e, happ, lost, ?_⟩
    rw [run_cons, run_nil, next_shift, ← happ]
    rfl
  | restart =>
    refine ⟨[], .restart, h.next hsound .restart, ?_, lost ++ d.sys.inFlight, ?_⟩
    · rw [h.buildApp_eq hsound]
      exact happ
    · rw [h.buildApp_eq hsound, if_pos hdirs, run_nil, List.append_nil]

/-- The upload that was lost leaves the next one, which is accepted, in its place. -/
theorem restarts_refine_interruptedUpload :
    ∃ (d : Coordinator) (ess : List (List Event)) (lost : List Pending),
      List.Forall₂ Happening.Requests Sample.interruptedUpload ess ∧
      d.app = (Sample.started Sample.composeDirs).app ∧
      Lib.run (next (Sample.started Sample.composeDirs).app)
        (Sample.started Sample.composeDirs).sys ess.flatten =
        ⟨d.sys.world, lost ++ d.sys.inFlight⟩ ∧
      d.sys.world.store.contributions.rows.map (fun row => (row.challenge, row.accepted)) =
        [("b", true)] := by
  have hrows : (Lib.run (Coordinator.next Sample.pem Sample.composeDirs)
      (Sample.started Sample.composeDirs) Sample.interruptedUpload).sys.world.store.contributions.rows.map
      (fun row => (row.challenge, row.accepted)) = [("b", true)] := by decide +kernel
  have hdirs : Sample.composeDirs.crl = Sample.composeDirs.ca := by decide +kernel
  obtain ⟨ess, lost, hess, happ, hrun⟩ := restarts_refine Sample.pem_sound hdirs
    (Sample.initCa_disk Sample.composeDirs)
    (rfl : Sample.started Sample.composeDirs = _)
    (rfl : Lib.run (Coordinator.next Sample.pem Sample.composeDirs)
      (Sample.started Sample.composeDirs) Sample.interruptedUpload = _)
  exact ⟨_, ess, lost, hess, happ, hrun, hrows⟩

/-- A restart keeps the CRL exactly where it is written to the directory that it is loaded from, or
where it is still the one of the installation. -/
theorem restart_keeps_crl_iff (hsound : PemSound settings.host pem draw)
    {files files' : String → Option Bytes}
    (hinit : initCa settings.host pem dirs.ca draw files = .ok files') {store : Store}
    {audit : AuditTrail} {hs : List Happening} {c : Coordinator}
    (hrun : Lib.run (Coordinator.next pem dirs) (buildApp pem dirs settings store audit files') hs =
      c) :
    (c.next pem dirs .restart).sys.world.crl = c.sys.world.crl ↔
      dirs.crl = dirs.ca ∨ c.sys.world.crl = some (buildCrl draw.caCert [] draw.now) := by
  have h : Installed pem dirs draw settings c :=
    hrun ▸ run_invariant_all (Coordinator.next pem dirs) (fun c a h => h.next hsound a)
      (Installed.of_initCa hsound hinit store audit).1 hs
  rw [h.buildApp_eq hsound]
  by_cases hdirs : dirs.crl = dirs.ca
  · simp [hdirs]
  · simp [hdirs, eq_comm]

/-- Where no directory is set, a restart forgets the revocation. -/
theorem restart_keeps_crl_iff_default :
    ∃ c : Coordinator, Lib.run (Coordinator.next Sample.pem Sample.defaultDirs)
        (Sample.started Sample.defaultDirs) Sample.interruptedUpload = c ∧
      (c.next Sample.pem Sample.defaultDirs .restart).sys.world.crl ≠ c.sys.world.crl := by
  have hdirs : Sample.defaultDirs.crl ≠ Sample.defaultDirs.ca := by decide +kernel
  have hcrl : (Lib.run (Coordinator.next Sample.pem Sample.defaultDirs)
      (Sample.started Sample.defaultDirs) Sample.interruptedUpload).sys.world.crl ≠
      some (buildCrl Sample.draw.caCert [] Sample.draw.now) := by decide +kernel
  have hiff := restart_keeps_crl_iff Sample.pem_sound (Sample.initCa_disk Sample.defaultDirs)
    (rfl : Lib.run (Coordinator.next Sample.pem Sample.defaultDirs)
      (Sample.started Sample.defaultDirs) Sample.interruptedUpload = _)
  exact ⟨_, rfl, hiff.not.mpr (not_or.mpr ⟨hdirs, hcrl⟩)⟩

end Refinement

end FlCoordinator
