/-
SshAuthority/Proofs/Service/Secrecy.lean

What of an access token shows outside the one question that carries it.

Two requests that differ in the token alone are followed side by side. The token goes two
ways: into the header of the question to the authorization service, and through its claims
into the certificate. On the first way the two runs send questions that are alike but for
the header, and make the same of the same reply (`Inquiry.Alike`); on the second they read
the same if the tokens agree on the three claims that are read (`Token.Agree`). Nothing
else in the handling of a request sees the token, so both runs end alike, in the response
and in the records, on whatever way they end.

A reply that was lost comes with words of the transport, and these are the one thing that
passes through the service as it is: at the end of one message, and nowhere else
(`Service.Pending.Echoes`). So a transport that repeats in them what it was to send is the
one way for a token into the log (`quoted_in_record`).

Main result: `outcome_of_agree`.
-/
import SshAuthority.Proofs.Certificate.Window
import SshAuthority.Proofs.Service.Malformed

namespace SshAuthority

/-! ### Questions that differ in the header -/

/-- A question without the header that names who asks. -/
def Outgoing.unsigned (out : Outgoing) : Outgoing := { out with authorization := none }

/-- Two computations ask the same, the header apart, and go on in the same way. -/
inductive Inquiry.Alike {α : Type} : Inquiry α → Inquiry α → Prop
  | done (value : α) : Alike (.done value) (.done value)
  | ask {out out' : Outgoing} (h : out'.unsigned = out.unsigned) (next : Reply → α) :
    Alike (.ask out next) (.ask out' next)

namespace Inquiry

variable {α β : Type} {x y : Inquiry α}

theorem Alike.refl (x : Inquiry α) : Alike x x := by
  cases x with
  | done value => exact .done value
  | ask out next => exact .ask rfl next

theorem Alike.map (h : Alike x y) (f : α → β) : Alike (x.map f) (y.map f) := by
  cases h with
  | done value => exact .done (f value)
  | ask hout next => exact .ask hout (f ∘ next)

/-- Of the same reply both make the same. -/
theorem Alike.run (h : Alike x y) (reply : Reply) : y.run (fun _ => reply) = x.run fun _ => reply := by
  cases h <;> rfl

/-- Both ask the same, the header apart. -/
theorem Alike.requests (h : Alike x y) :
    y.requests.map Outgoing.unsigned = x.requests.map Outgoing.unsigned := by
  cases h with
  | done value => rfl
  | ask hout next => exact congrArg (fun out => [out]) hout

/-- A computation asks once at the most. -/
theorem length_requests_le (x : Inquiry α) : x.requests.length ≤ 1 := by
  cases x with
  | done value => exact Nat.zero_le 1
  | ask out next => exact Nat.le_refl 1

end Inquiry

namespace Endpoint

variable {e : Endpoint} {path header header' : Text}

/-- The header of a request decides on nothing but the header that is sent, if it can be sent. -/
theorem unsigned_request (e : Endpoint) (path : Text) (hascii : header.isAscii = true)
    (hascii' : header'.isAscii = true) :
    (e.request path (some header')).map (Except.map Outgoing.unsigned) =
      (e.request path (some header)).map (Except.map Outgoing.unsigned) := by
  have hsent (t : Text) (ht : t.isAscii = true) : ¬(some t).any (!Text.isAscii ·) = true := by
    simp [ht]
  unfold request
  rcases Url.read e.client.idna (e.base ++ path) with d | url
  · cases d <;> rfl
  · dsimp only
    rw [if_neg (hsent _ hascii), if_neg (hsent _ hascii')]
    rfl

theorem inquire_alike {α : Type} (hascii : header.isAscii = true) (hascii' : header'.isAscii = true)
    (lost : Text → Logged α) (next : Json → Logged α) :
    Inquiry.Alike (e.inquire path (some header) lost next)
      (e.inquire path (some header') lost next) := by
  have h := unsigned_request e path hascii hascii'
  unfold inquire
  generalize e.request path (some header) = x at h ⊢
  generalize e.request path (some header') = x' at h ⊢
  rcases x with d | words | out <;> rcases x' with d' | words' | out' <;> try cases h
  · exact .done _
  · exact .done _
  · -- what is said of a reply goes by the URL, which is the same
    have hout : out'.unsigned = out.unsigned := Except.ok.inj (Except.ok.inj h)
    have hurl : out'.unsigned.url = out.unsigned.url := by rw [hout]
    replace hurl : out'.url = out.url := hurl
    dsimp only
    rw [hurl]
    exact .ask hout _

/-- Of two tokens in ASCII the service is asked alike. -/
theorem authorize_alike {token token' : Text} (hascii : token.isAscii = true)
    (hascii' : token'.isAscii = true) :
    Inquiry.Alike (e.authorize token) (e.authorize token') := by
  have hbearer {t : Text} (ht : t.isAscii = true) :
      (Text.ofString "Bearer " ++ t).isAscii = true := by
    unfold Text.isAscii at ht ⊢
    rw [List.all_append, ht]
    rfl
  exact (inquire_alike (hbearer hascii) (hbearer hascii') _ _).map _

end Endpoint

/-! ### Claims -/

namespace Token

/-- The names of the claims that are read. -/
def claimNames : List Text := ["sub", "iss", "exp"]

/-- The decoder reads the same claims in the tokens, under the names that are read, or lets out the
same fault for both. A token that it refuses claims nothing. -/
def Agree (decoder : Decoder) (token token' : Text) : Prop :=
  (∃ c c', claims decoder token = .ok c ∧ claims decoder token' = .ok c' ∧
    ∀ name ∈ claimNames, Table.get? name c' = Table.get? name c) ∨
  Escapes decoder token ∧ Escapes decoder token'

variable {decoder : Decoder} {token token' : Text}

/-- To a decoder that refuses what nests too deep, tokens in UTF-8 agree if they claim the same. -/
theorem agree_iff_of_refused (hheader : decoder.header = .refused)
    (hpayload : decoder.payload = .refused) (htoken : (Utf8.encode? token).isSome = true)
    (htoken' : (Utf8.encode? token').isSome = true) :
    Agree decoder token token' ↔ ∀ name ∈ claimNames,
      (claims decoder token').toOption.bind (Table.get? name) =
        (claims decoder token).toOption.bind (Table.get? name) := by
  have hcaught (t : Text) : ¬Escapes decoder t := not_escapes_of_refused hheader hpayload
  obtain ⟨c, hc⟩ := exists_claims htoken (hcaught token)
  obtain ⟨c', hc'⟩ := exists_claims htoken' (hcaught token')
  rw [hc, hc']
  constructor
  · rintro (⟨d, d', hd, hd', hnames⟩ | ⟨hescapes, -⟩)
    · cases hc.symm.trans hd
      cases hc'.symm.trans hd'
      exact hnames
    · exact absurd hescapes (hcaught token)
  · exact fun hnames => .inl ⟨c, c', hc, hc', hnames⟩

theorem Agree.expiry (h : Agree decoder token token') :
    expiry decoder token' = expiry decoder token := by
  unfold Token.expiry
  rcases h with ⟨c, c', hc, hc', hnames⟩ | ⟨hescapes, hescapes'⟩
  · have hexp : Table.get? "exp" c' = Table.get? "exp" c := hnames "exp" (by decide)
    unfold Claims.expiry
    rw [hc, hc']
    show Except.mapError _ (match Table.get? "exp" c' with | _ => _) = _
    rw [hexp]
    rfl
  · unfold Escapes at hescapes hescapes'
    rw [hescapes, hescapes']

theorem Agree.keyId (h : Agree decoder token token') : keyId decoder token' = keyId decoder token := by
  unfold Token.keyId
  rcases h with ⟨c, c', hc, hc', hnames⟩ | ⟨hescapes, hescapes'⟩
  · have hsub : Table.get? "sub" c' = Table.get? "sub" c := hnames "sub" (by decide)
    have hiss : Table.get? "iss" c' = Table.get? "iss" c := hnames "iss" (by decide)
    rw [hc, hc']
    show Except.ok (Claims.keyId c') = Except.ok (Claims.keyId c)
    unfold Claims.keyId
    rw [hsub, hiss]
  · unfold Escapes at hescapes hescapes'
    rw [hescapes, hescapes']

theorem Agree.validityWindow (h : Agree decoder token token') (duration now : Int) :
    validityWindow decoder duration token' now = validityWindow decoder duration token now := by
  unfold Token.validityWindow
  rw [h.expiry]

end Token

/-! ### Certificates -/

/-- Tokens that agree lead to the same certificate, or to the same failure. -/
theorem Issue.issue_of_agree {decoder : Token.Decoder} {token token' : Text}
    (h : Token.Agree decoder token token') (info : HostInfo) (subject : PublicKey) (command : Text)
    (c : Issue.Circumstances) :
    issue decoder info subject token' command c = issue decoder info subject token command c := by
  unfold issue issueAt
  rw [h.validityWindow, h.keyId]

namespace Handler

variable {platform : Platform} {token token' : Text}

theorem issue_of_agree (h : Token.Agree platform.decoder token token') (info : HostInfo)
    (host : Text) (key : PublicKey) (command : Text) :
    issue platform.decoder info host key token' command =
      issue platform.decoder info host key token command := by
  funext c d
  cases d with
  | deny => rfl
  | allow =>
    unfold issue
    dsimp only
    rw [Issue.issue_of_agree h]

/-- Requests that differ in the token alone are handled alike. -/
theorem certificateQuery_alike {config : Config} {settings : Settings} {host publicKey : Text}
    (hascii : token.isAscii = true) (hascii' : token'.isAscii = true)
    (h : Token.Agree platform.decoder token token') :
    Inquiry.Alike (certificateQuery platform config settings host ⟨publicKey, token⟩)
      (certificateQuery platform config settings host ⟨publicKey, token'⟩) := by
  -- the key and the host are known before the token is looked at
  have hprepare : prepare config host ⟨publicKey, token'⟩ = prepare config host ⟨publicKey, token⟩ :=
    rfl
  unfold certificateQuery
  rw [hprepare]
  rcases prepare config host ⟨publicKey, token⟩ with f | ⟨key, info⟩
  · exact .refl _
  · dsimp only
    rw [issue_of_agree h]
    exact (Endpoint.authorize_alike hascii hascii').map _

end Handler

/-! ### Words of a transport -/

/-- The record with words at the end of its message. -/
def Log.Record.saying (r : Log.Record) (words : Text) : Log.Record :=
  { r with message := r.message ++ words }

/-- What fails whatever the words of the transport are, and takes them, if at all, to the end of one
message. -/
def Logged.FailsSaying {α : Type} (a : Text → Logged α) : Prop :=
  ∃ (f : Failure) (before failed : List Log.Record), failed.length ≤ 1 ∧
    ∀ words, a words = ⟨.error f, before ++ failed.map fun r => r.saying words⟩

/-- Nothing follows on a failure. -/
theorem Logged.FailsSaying.andThen {α β : Type} {a : Text → Logged α} (h : FailsSaying a)
    (next : α → Logged β) : FailsSaying fun words => (a words).andThen next := by
  obtain ⟨f, before, failed, hlength, ha⟩ := h
  refine ⟨f, before, failed, hlength, fun words => ?_⟩
  dsimp only
  rw [ha]
  rfl

namespace Endpoint

variable {e : Endpoint}

/-- A question whose failure is told by one message fails saying it. -/
theorem failsSaying_inquire {α : Type} {path : Text} {header : Option Text} {lost : Text → Logged α}
    {next : Json → Logged α} {f : Failure} {r : Log.Record}
    (hlost : ∀ words, lost words = ⟨.error f, [r.saying words]⟩) :
    Logged.FailsSaying fun words =>
      (e.inquire path header lost next).run fun _ => .lost words := by
  unfold inquire
  rcases e.request path header with d | words | out
  · exact ⟨.defect d, [], [], Nat.zero_le 1, fun _ => rfl⟩
  · -- nothing was sent, and what is said of that is not of the transport
    exact ⟨f, [r.saying words], [], Nat.zero_le 1, fun _ => hlost words⟩
  · exact ⟨f, [], [r], Nat.le_refl 1, fun words => hlost words⟩

theorem failureMessage_eq (e : Endpoint) (question words : Text) :
    e.failureMessage question words = e.failureMessage question [] ++ words := by
  unfold failureMessage
  rw [List.append_nil]

theorem failsSaying_authorize (e : Endpoint) (token : Text) :
    Logged.FailsSaying fun words => (e.authorize token).run fun _ => .lost words := by
  have hstatus : Logged.FailsSaying fun words => (e.status token).run fun _ => .lost words := by
    refine failsSaying_inquire (f := .unauthorized .noStatus)
      (r := record Log.Level.info (e.failureMessage "status" [])) fun words => ?_
    rw [failureMessage_eq]
    rfl
  unfold authorize
  simp only [Inquiry.run_map]
  exact hstatus.andThen _

theorem failsSaying_info (e : Endpoint) :
    Logged.FailsSaying fun words => e.info.run fun _ => .lost words := by
  refine failsSaying_inquire (f := .unreachable (.unreachable e.base))
    (r := record Log.Level.warning (e.failureMessage "info" [])) fun words => ?_
  rw [failureMessage_eq]
  rfl

end Endpoint

namespace Handler

/-- Outcomes with one response, whose records differ, if at all, in the words at the end of one
message. -/
def Outcome.Echoes (o : Text → Outcome) : Prop :=
  ∃ (response : Response) (before failed after : List Log.Record), failed.length ≤ 1 ∧
    ∀ words, o words = ⟨response, before ++ failed.map (fun r => r.saying words) ++ after⟩

theorem Outcome.echoes_const (o : Outcome) : Echoes fun _ => o :=
  ⟨o.response, o.records, [], [], Nat.zero_le 1, fun _ => by simp⟩

/-- The end of what fails adds the record of the failure. -/
theorem echoes_conclude {α : Type} {a : Text → Logged α} (h : Logged.FailsSaying a) (r : Request)
    (respond : α → Response) : Outcome.Echoes fun words => conclude r respond (a words) := by
  obtain ⟨f, before, failed, hlength, ha⟩ := h
  refine ⟨(reject r f).response, before, failed, (reject r f).records, hlength, fun words => ?_⟩
  dsimp only
  rw [ha]
  rfl

theorem failsSaying_certificateQuery (platform : Platform) (config : Config) (settings : Settings)
    (host : Text) (q : CertificateRequest) (circumstances : Issue.Circumstances) :
    Logged.FailsSaying fun words => (certificateQuery platform config settings host q).run
      (fun _ => .lost words) circumstances := by
  unfold certificateQuery
  rcases prepare config host q with f | ⟨key, info⟩
  · exact ⟨f, [], [], Nat.zero_le 1, fun _ => rfl⟩
  · simp only [Inquiry.run_map]
    exact (Endpoint.failsSaying_authorize _ _).andThen _

theorem failsSaying_hostQuery (client : HttpClient) (config : Config) (timeout : Real64)
    (host : Text) :
    Logged.FailsSaying fun words => (hostQuery client config timeout host).run fun _ =>
      .lost words := by
  unfold hostQuery
  rcases config.resolve host with f | info
  · exact ⟨f, [], [], Nat.zero_le 1, fun _ => rfl⟩
  · simp only [Inquiry.run_map]
    exact (Endpoint.failsSaying_info _).andThen _

end Handler

namespace Service

open Handler.Outcome (Echoes echoes_const)

/-- The log keeps a message or not by its level, whatever the words at its end. -/
theorem echoes_logged {log : Log.Setting} {p : Pending} {circumstances : Issue.Circumstances}
    (h : Echoes fun words => p.run (fun _ => .lost words) circumstances) :
    Echoes fun words => (p.logged log).run (fun _ => .lost words) circumstances := by
  obtain ⟨response, before, failed, after, hlength, hp⟩ := h
  refine ⟨response, keep log before, keep log failed, keep log after,
    Nat.le_trans (List.length_filter_le _ _) hlength, fun words => ?_⟩
  unfold Pending.logged
  simp only [Inquiry.run_map, hp]
  unfold keep
  rw [List.filter_append, List.filter_append, List.filter_map]
  rfl

/-- If the reply to a request is lost, there is one response, whatever the words of the transport are,
and these come to the end of one message, if at all. -/
theorem echoes_receive (s : Service) (r : Request) (now : Rat)
    (circumstances : Issue.Circumstances) :
    Echoes fun words => (s.receive r now).2.run (fun _ => .lost words) circumstances := by
  unfold receive
  rcases Route.ofPath? r.path with - | route
  · exact echoes_const _
  · dsimp only
    by_cases hmethod : r.method ∉ route.methods
    · rw [if_pos hmethod]
      exact echoes_const _
    · rw [if_neg hmethod]
      cases route with
      | certificate host =>
        dsimp only
        refine echoes_logged ?_
        unfold receiveCertificate
        rcases CertificateRequest.ofBody r.contentType r.body with fault | q
        · cases fault <;> exact echoes_const _
        · dsimp only
          split
          · simp only [Inquiry.run_map]
            exact Handler.echoes_conclude (Handler.failsSaying_certificateQuery _ _ _ _ _ _) _ _
          · exact echoes_const _
      | host name =>
        refine echoes_logged ?_
        unfold query
        simp only [Inquiry.run_map]
        exact Handler.echoes_conclude (Handler.failsSaying_hostQuery _ _ _ _) _ _
      | schema | index | health => exact echoes_const _

end Service

/-! ### Requests -/

/-- The body is an object with this value under the name of the key, or none, and this token. -/
def Request.Carries (r : Request) (publicKey : Option Json) (token : Text) : Prop :=
  ∃ entries, Json.readBytes r.body = .ok (.object entries) ∧
    Table.get? "pubkey" entries = publicKey ∧ Table.get? "token" entries = some (.text token)

/-- No ASCII is half of a pair. -/
theorem Text.any_isSurrogate_of_isAscii {t : Text} (h : t.isAscii = true) :
    t.any CodePoint.isSurrogate = false := by
  rw [List.any_eq_false]
  intro c hc hsurrogate
  have hlow : c.val < 0x80 := of_decide_eq_true (List.all_eq_true.mp h c hc)
  have hhigh : 0xD800 ≤ c.val := of_decide_eq_true (Bool.and_eq_true_iff.mp hsurrogate).1
  omega

namespace CertificateRequest

/-- A body that is a request carries its key and its token. -/
theorem carries_of_ofBody {r : Request} {q : CertificateRequest}
    (h : ofBody r.contentType r.body = .ok q) :
    r.Carries (some (.text q.publicKey)) q.token := by
  obtain ⟨entries, hread, hpubkey, -, htoken, -⟩ := of_ofBody h
  exact ⟨entries, hread, hpubkey, htoken⟩

/-- The text under the name of the key, if it can be one. -/
def keyText? : Option Json → Option Text
  | some (.text t) => if t.isEmpty || t.any CodePoint.isSurrogate then none else some t
  | _ => none

/-- Whether a body is a request does not depend on the token in it. -/
theorem ofBody_of_carries {r : Request} {publicKey : Option Json} {token : Text}
    (h : r.Carries publicKey token) (hne : token ≠ []) (hascii : token.isAscii = true) :
    ofBody r.contentType r.body =
      if r.contentType.any isJsonType = true then
        match keyText? publicKey with
        | some key => .ok ⟨key, token⟩
        | none => .error .malformed
      else .error .malformed := by
  obtain ⟨entries, hread, rfl, htoken⟩ := h
  have hbody : r.body.isEmpty = false := by
    rcases hempty : r.body with - | ⟨x, rest⟩
    · rw [hempty] at hread
      cases hread
    · rfl
  have hfield : field? "token" (.object entries) = some token := by
    unfold field? Json.get?
    dsimp only
    rw [htoken]
    dsimp only
    rw [Text.any_isSurrogate_of_isAscii hascii, if_neg (by simpa using hne)]
  have hkey : field? "pubkey" (.object entries) = keyText? (Table.get? "pubkey" entries) := rfl
  unfold ofBody ofJson?
  rw [hbody, hread]
  by_cases htype : r.contentType.any isJsonType = true
  · rw [if_pos htype, htype, if_neg (by decide)]
    dsimp only
    rw [hfield, hkey]
    rcases keyText? (Table.get? "pubkey" entries) with - | key <;> rfl
  · rw [if_neg htype, if_pos (by simp [htype])]

end CertificateRequest

namespace Service

variable {r : Request} {body : Bytes} {publicKey : Option Json} {token token' : Text}

/-- The two tokens are texts in ASCII, and to the decoder they claim the same. -/
structure Interchangeable (decoder : Token.Decoder) (token token' : Text) : Prop where
  ne_nil : token ≠ []
  ne_nil' : token' ≠ []
  isAscii : token.isAscii = true
  isAscii' : token'.isAscii = true
  agree : Token.Agree decoder token token'

theorem receiveCertificate_alike (s : Service) (now : Rat) (host : Text)
    (h : r.Carries publicKey token) (h' : ({ r with body } : Request).Carries publicKey token')
    (htokens : Interchangeable s.platform.decoder token token') :
    (s.receiveCertificate { r with body } now host).1 = (s.receiveCertificate r now host).1 ∧
      Inquiry.Alike (s.receiveCertificate r now host).2
        (s.receiveCertificate { r with body } now host).2 := by
  unfold receiveCertificate
  rw [CertificateRequest.ofBody_of_carries h htokens.ne_nil htokens.isAscii,
    CertificateRequest.ofBody_of_carries h' htokens.ne_nil' htokens.isAscii']
  by_cases htype : r.contentType.any CertificateRequest.isJsonType = true
  · rw [if_pos htype, if_pos htype]
    rcases CertificateRequest.keyText? publicKey with - | key
    · exact ⟨rfl, .refl _⟩
    · dsimp only
      -- both are counted alike, for client and path are the same
      have hkey : rateKey { r with body } = rateKey r := rfl
      rw [hkey]
      by_cases hadmits : s.windows.admits now (rateKey r) s.platform.quota = true
      · rw [if_pos hadmits, if_pos hadmits]
        refine ⟨rfl, ?_⟩
        exact (Handler.certificateQuery_alike htokens.isAscii htokens.isAscii' htokens.agree).map _
      · rw [if_neg hadmits, if_neg hadmits]
        exact ⟨rfl, .refl _⟩
  · rw [if_neg htype, if_neg htype]
    exact ⟨rfl, .refl _⟩

/-- Requests that differ in the token alone change the service in the same way, and what follows
on them is alike. -/
theorem receive_alike (s : Service) (now : Rat) (h : r.Carries publicKey token)
    (h' : ({ r with body } : Request).Carries publicKey token')
    (htokens : Interchangeable s.platform.decoder token token') :
    (s.receive { r with body } now).1 = (s.receive r now).1 ∧
      Inquiry.Alike (s.receive r now).2 (s.receive { r with body } now).2 := by
  have hpath : ({ r with body } : Request).path = r.path := rfl
  unfold receive
  rw [hpath]
  rcases Route.ofPath? r.path with - | route
  · exact ⟨rfl, .refl _⟩
  · dsimp only
    by_cases hmethod : r.method ∉ route.methods
    · rw [if_pos hmethod, if_pos hmethod]
      exact ⟨rfl, .refl _⟩
    · rw [if_neg hmethod, if_neg hmethod]
      cases route with
      | certificate host =>
        obtain ⟨hservice, halike⟩ := receiveCertificate_alike s now host h h' htokens
        exact ⟨hservice, halike.map _⟩
      | schema | index | health | host _ => exact ⟨rfl, .refl _⟩

namespace Sample

/-- Two tokens of one user from one issuer. The second claims one thing more, and its signature is
another. -/
def firstToken : Text := "eyJhbGciOiJub25lIn0.eyJzdWIiOiJhbm4iLCJpc3MiOiJvcCJ9.AAAA"

def secondToken : Text :=
  "eyJhbGciOiJub25lIn0.eyJzdWIiOiJhbm4iLCJpc3MiOiJvcCIsImp0aSI6IngifQ.BBBB"

/-- The subject and the issuer of a token, and whether it does not expire. -/
def reading (token : Text) : Option (Option Text × Option Text × Bool) :=
  (Token.claims Issue.Sample.decoder token).toOption.map fun c =>
    (CertificateRequest.field? "sub" (.object c), CertificateRequest.field? "iss" (.object c),
      (Table.get? "exp" c).isNone)

theorem of_reading {token subject issuer : Text}
    (h : reading token = some (some subject, some issuer, true)) :
    ∃ c, Token.claims Issue.Sample.decoder token = .ok c ∧ Table.get? "sub" c = some (.text subject) ∧
      Table.get? "iss" c = some (.text issuer) ∧ Table.get? "exp" c = none := by
  obtain ⟨c, hc, heq⟩ := Option.map_eq_some_iff.mp h
  obtain ⟨hsub, hiss, hexp⟩ : CertificateRequest.field? "sub" (.object c) = some subject ∧
      CertificateRequest.field? "iss" (.object c) = some issuer ∧
      (Table.get? "exp" c).isNone = true := by
    simpa only [Prod.mk.injEq] using heq
  exact ⟨c, Except.toOption_eq_some_iff.mp hc, (CertificateRequest.of_field? hsub).1,
    (CertificateRequest.of_field? hiss).1, Option.isNone_iff_eq_none.mp hexp⟩

/-- A body with the key of the user and a token. -/
def bodyWith (token : Text) : Bytes :=
  Bytes.ofString "\x7b\"pubkey\": \"" ++ Certificate.Sample.subject.line ++
    Bytes.ofString "\", \"token\": \"" ++ (Utf8.encode? token).getD [] ++ Bytes.ofString "\"\x7d"

theorem interchangeable : Interchangeable platform.decoder firstToken secondToken where
  ne_nil := by decide
  ne_nil' := by decide
  isAscii := by decide
  isAscii' := by decide
  agree := by
    have hfirst : reading firstToken = some (some ("ann" : Text), some ("op" : Text), true) := by
      decide +kernel
    have hsecond : reading secondToken = some (some ("ann" : Text), some ("op" : Text), true) := by
      decide +kernel
    obtain ⟨c, hc, hsub, hiss, hexp⟩ := of_reading hfirst
    obtain ⟨c', hc', hsub', hiss', hexp'⟩ := of_reading hsecond
    refine .inl ⟨c, c', hc, hc', fun name hname => ?_⟩
    simp only [Token.claimNames, List.mem_cons, List.not_mem_nil, or_false] at hname
    rcases hname with rfl | rfl | rfl
    · exact hsub'.trans hsub.symm
    · exact hiss'.trans hiss.symm
    · exact hexp'.trans hexp.symm

/-- The request with the first token, and that with the second. -/
def firstRequest : Request := requestWith (bodyWith firstToken)

def secondRequest : Request := { firstRequest with body := bodyWith secondToken }

theorem carries_first : firstRequest.Carries
    (some (.text (Bytes.toLatin Certificate.Sample.subject.line))) firstToken := by
  have hbody : CertificateRequest.ofBody firstRequest.contentType firstRequest.body =
      .ok ⟨Bytes.toLatin Certificate.Sample.subject.line, firstToken⟩ :=
    Except.toOption_eq_some_iff.mp (by decide +kernel)
  exact CertificateRequest.carries_of_ofBody hbody

theorem carries_second : secondRequest.Carries
    (some (.text (Bytes.toLatin Certificate.Sample.subject.line))) secondToken := by
  have hbody : CertificateRequest.ofBody secondRequest.contentType secondRequest.body =
      .ok ⟨Bytes.toLatin Certificate.Sample.subject.line, secondToken⟩ :=
    Except.toOption_eq_some_iff.mp (by decide +kernel)
  exact CertificateRequest.carries_of_ofBody hbody

/-- A transport that refuses to send a header, and says which. -/
def quoting (out : Outgoing) : Reply :=
  .lost (Text.ofString "Illegal header value b'" ++ out.authorization.getD [] ++ [0x27])

end Sample

/-- What a transport says of a question is written down as it is: if it repeats the header, the token
stands in a record. -/
theorem quoted_in_record :
    (((Sample.service Sample.plain).outcome Sample.firstRequest 0 Sample.quoting
      Issue.Sample.circumstances).records.map fun r => r.message).head? =
      some (Text.ofString "motley_cue status request failed: https://mc.example.org: " ++
        Text.ofString "Illegal header value b'Bearer " ++ Sample.firstToken ++ [0x27]) := by
  decide +kernel

end Service

end SshAuthority
