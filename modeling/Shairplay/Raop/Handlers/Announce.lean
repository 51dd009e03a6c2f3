import Shairplay.Proto.Sdp.Attributes
import Shairplay.Raop.Rtsp

/-!
# Encryption of announced sessions

A sender that announces a key expects encryption. The handler decides by the values the
parser kept, and an attribute without a value is not kept: such a key is taken for no key.
Every other announcement of a key leads to an encrypted session or to none.
-/

namespace Shairplay.Raop

open Lib Proto Sdp

variable (env : Platform) (w : World) (request : Request) (response : HttpResponse)

/-- The text of a request; without one the handler does nothing. -/
def announcedText (request : Request) : List Char :=
  ((request.body.bind Utf8.fromUtf8).map String.toList).getD []

/-- The session that an ANNOUNCE creates: the one that is there afterwards if there was none
before. -/
def announcedSession : Option RaopRtp :=
  (handleAnnounce env (w.setRtp none) request response).world.conn.raopRtp

/-- The text has a line for a key, whatever its value. -/
def advertisesKey (text : List Char) : Bool :=
  hasAttribute "rsaaeskey" text || hasAttribute "fpaeskey" text

/-- The text gives a key, by RSA or by FairPlay; FairPlay takes a message of 72 bytes. -/
def AnnouncesKey (text : List Char) (key : List UInt8) : Prop :=
  (∃ rsa, valueOf "rsaaeskey" text = some rsa ∧ env.rsaDecrypt rsa = .ok key) ∨
    ∃ fp data, valueOf "rsaaeskey" text = none ∧ valueOf "fpaeskey" text = some fp ∧
      env.base64Decode fp = .ok data ∧ data.length = 72 ∧
      w.conn.fairplay.decrypt env data = .ok key

/-- The session uses the first 16 bytes of the key and of the vector that the text gives. -/
def UsesAnnouncedKey (text : List Char) (session : RaopRtp) : Prop :=
  ∃ key vector iv, AnnouncesKey env w text key ∧ 16 ≤ key.length ∧
    valueOf "aesiv" text = some vector ∧ env.base64Decode vector = .ok iv ∧ 16 ≤ iv.length ∧
    session.encryption = some { key := key.take 16, iv := iv.take 16 }

/-- A text that names a key, gives neither a key nor a vector a value, and is in order
otherwise. -/
def valuelessKey (text : List Char) : Bool :=
  advertisesKey text && (valueOf "rsaaeskey" text).isNone && (valueOf "fpaeskey" text).isNone &&
    (valueOf "aesiv" text).isNone && (parse text).connection.isSome &&
    (parse text).rtpmap.any fun rtpmap =>
      codecSupported (String.ofList rtpmap) (String.ofList ((parse text).fmtp.getD []))

variable {env w request response}

@[simp] theorem setRtp_raopRtp (w : World) (raopRtp : Option RaopRtp) :
    (w.setRtp raopRtp).conn.raopRtp = raopRtp := rfl

theorem announceSession_raopRtp (rtpmap : List Char) (fmtp : Option (List Char))
    (encryption : Option AesSession) :
    (announceSession w response rtpmap fmtp encryption).world.conn.raopRtp =
      RaopRtp.new rtpmap fmtp encryption := by
  unfold announceSession
  dsimp only
  split <;> rfl

theorem announcedKey_setRtp (raopRtp : Option RaopRtp) (sdp : Sdp) :
    (announcedKey env (w.setRtp raopRtp) sdp).2 = (announcedKey env w sdp).2 := by
  unfold announcedKey
  repeat' split
  all_goals simp_all [World.setRtp, World.mapConn]

theorem announcedKey_raopRtp (sdp : Sdp) :
    (announcedKey env w sdp).1.conn.raopRtp = w.conn.raopRtp := by
  unfold announcedKey
  repeat' split
  all_goals rfl

theorem announcesKey_of_announcedKey {text : List Char} {key : List UInt8}
    (found : (announcedKey env w (parse text)).2 = some key) : AnnouncesKey env w text key := by
  rw [announcedKey, isAttribute_rsaaeskey.parse, isAttribute_fpaeskey.parse] at found
  split at found
  · rename_i rsa given
    split at found
    · rename_i decrypted
      cases found
      exact .inl ⟨rsa, given, decrypted⟩
    · cases found
  · rename_i fp absent given
    split at found
    · cases found
    · rename_i data decoded
      split at found
      · cases found
      · rename_i sized
        split at found
        · rename_i decrypted
          cases found
          exact .inr ⟨fp, data, absent, given, decoded, not_not.mp sized, decrypted⟩
        · cases found
  · cases found

theorem vector_of_announcedIv {text : List Char} {iv : List UInt8}
    (found : announcedIv env (parse text) = some iv) :
    ∃ vector, valueOf "aesiv" text = some vector ∧ env.base64Decode vector = .ok iv ∧
      16 ≤ iv.length := by
  rw [announcedIv, isAttribute_aesiv.parse] at found
  split at found
  · cases found
  · rename_i vector given
    rw [Option.filter_eq_some_iff] at found
    refine ⟨vector, given, ?_, by simpa using found.2⟩
    cases decoded : env.base64Decode vector with
    | error e => simp [decoded, Except.toOption] at found
    | ok bytes => simpa [decoded, Except.toOption] using found.1

/-- The old session is not looked at: it stays, or what replaces it does not depend on it. -/
theorem handleAnnounce_raopRtp (env : Platform) (w : World) (request : Request)
    (response : HttpResponse) :
    ∃ decided : Option (Option RaopRtp), ∀ old,
      (handleAnnounce env (w.setRtp old) request response).world.conn.raopRtp =
        decided.getD old := by
  unfold handleAnnounce
  split
  · exact ⟨none, fun _ => rfl⟩
  · dsimp only
    split
    · split
      · exact ⟨none, fun _ => rfl⟩
      · split
        · exact ⟨none, fun _ => rfl⟩
        · split
          · exact ⟨some _, fun _ => announceSession_raopRtp _ _ _⟩
          · simp only [announcedKey_setRtp]
            split
            · exact ⟨none, fun _ => announcedKey_raopRtp _⟩
            · split
              · exact ⟨none, fun _ => announcedKey_raopRtp _⟩
              · exact ⟨some _, fun _ => announceSession_raopRtp _ _ _⟩
    · exact ⟨none, fun _ => rfl⟩

/-- After an ANNOUNCE a connection has the session that was created, or it has the old one and
none was created. -/
theorem handleAnnounce_session (env : Platform) (w : World) (request : Request)
    (response : HttpResponse) :
    (handleAnnounce env w request response).world.conn.raopRtp =
        announcedSession env w request response ∨
      announcedSession env w request response = none ∧
        (handleAnnounce env w request response).world.conn.raopRtp = w.conn.raopRtp := by
  obtain ⟨decided, result⟩ := handleAnnounce_raopRtp env w request response
  have now : (handleAnnounce env w request response).world.conn.raopRtp =
      decided.getD w.conn.raopRtp := result w.conn.raopRtp
  cases decided with
  | none => exact .inr ⟨result none, now⟩
  | some session => exact .inl (now.trans (result none).symm)

/-- A session without encryption is created only from a text in which neither a key nor a
vector has a value. -/
structure CreatesPlain (text : List Char) (session : RaopRtp) : Prop where
  connection : (parse text).connection.isSome = true
  rsaaeskey : (parse text).rsaaeskey = none
  fpaeskey : (parse text).fpaeskey = none
  aesiv : (parse text).aesiv = none
  session : ∃ rtpmap, (parse text).rtpmap = some rtpmap ∧
    RaopRtp.new rtpmap (parse text).fmtp none = some session

theorem encryption_of_new {rtpmap : List Char} {fmtp : Option (List Char)}
    {encryption : Option AesSession} {session : RaopRtp}
    (created : RaopRtp.new rtpmap fmtp encryption = some session) :
    session.encryption = encryption := by
  unfold RaopRtp.new at created
  split at created
  · cases created
    rfl
  · cases created

/-- What an ANNOUNCE can create: a session without encryption, or one with the key and the
vector of its text. -/
theorem announcedSession_cases {session : RaopRtp}
    (created : announcedSession env w request response = some session) :
    CreatesPlain (announcedText request) session ∨
      UsesAnnouncedKey env w (announcedText request) session := by
  unfold announcedSession handleAnnounce at created
  cases body : request.body.bind Utf8.fromUtf8 with
  | none => simp [body, Outcome.none] at created
  | some text =>
    have same : announcedText request = text.toList := by simp [announcedText, body]
    rw [same]
    simp only [body] at created
    split at created
    · rename_i remote rtpmap connection format
      split at created
      · simp [Outcome.disconnect] at created
      · rename_i oneKey
        split at created
        · simp [Outcome.disconnect] at created
        · rename_i noVector
          split at created
          · rename_i noKey
            -- no key has a value, and so no vector may have one
            rw [announceSession_raopRtp] at created
            simp only [Bool.not_eq_true', Bool.or_eq_false_iff, Option.isSome_eq_false_iff,
              Option.isNone_iff_eq_none] at noKey
            refine .inl ⟨by simp [connection], noKey.1, noKey.2, ?_, rtpmap, format, created⟩
            simpa [noKey] using noVector
          · cases key : (announcedKey env (w.setRtp none) (parse text.toList)).2.filter
                (fun key => 16 ≤ key.length) with
            | none =>
              simp [key, Outcome.disconnect, announcedKey_raopRtp] at created
            | some key' =>
              simp only [key] at created
              split at created
              · simp [Outcome.disconnect, announcedKey_raopRtp] at created
              · rename_i iv vector
                rw [announceSession_raopRtp] at created
                rw [announcedKey_setRtp, Option.filter_eq_some_iff] at key
                obtain ⟨given, known, decoded, long⟩ := vector_of_announcedIv vector
                exact .inr ⟨key', given, iv, announcesKey_of_announcedKey key.1,
                  by simpa using key.2, known, decoded, long, encryption_of_new created⟩
    · simp [Outcome.none] at created

theorem announcedSession_of_createsPlain {session : RaopRtp}
    (plain : CreatesPlain (announcedText request) session) :
    announcedSession env w request response = some session := by
  obtain ⟨rtpmap, format, created⟩ := plain.session
  cases body : request.body.bind Utf8.fromUtf8 with
  | none =>
    have same : announcedText request = [] := by simp [announcedText, body]
    rw [same] at format
    cases format
  | some text =>
    have same : announcedText request = text.toList := by simp [announcedText, body]
    have connection := plain.connection
    have noRsa := plain.rsaaeskey
    have noFairPlay := plain.fpaeskey
    have noVector := plain.aesiv
    rw [same] at format created connection noRsa noFairPlay noVector
    obtain ⟨remote, connection⟩ := Option.isSome_iff_exists.mp connection
    unfold announcedSession handleAnnounce
    simp only [body, connection, format, noRsa, noFairPlay, noVector, Option.isSome_none,
      Bool.and_self, Bool.or_self, Bool.not_false, Bool.false_eq_true, if_false, if_true,
      Bool.and_false, announceSession_raopRtp, created]

/-- A key without a value is what a session without encryption can be created from. -/
theorem valuelessKey_iff (text : List Char) :
    valuelessKey text = true ↔
      advertisesKey text = true ∧ ∃ session, CreatesPlain text session := by
  simp only [valuelessKey, Bool.and_eq_true, Option.isNone_iff_eq_none,
    ← isAttribute_rsaaeskey.parse, ← isAttribute_fpaeskey.parse, ← isAttribute_aesiv.parse]
  constructor
  · rintro ⟨⟨⟨⟨⟨advertised, noRsa⟩, noFairPlay⟩, noVector⟩, connection⟩, supported⟩
    cases format : (parse text).rtpmap with
    | none => simp [format] at supported
    | some rtpmap =>
      rw [format, Option.any_some] at supported
      have created : RaopRtp.new rtpmap (parse text).fmtp none =
          some ⟨rtpmap, (parse text).fmtp, none, none⟩ := by simp [RaopRtp.new, supported]
      exact ⟨advertised, _, connection, noRsa, noFairPlay, noVector, rtpmap, format, created⟩
  · rintro ⟨advertised, session, plain⟩
    obtain ⟨rtpmap, format, created⟩ := plain.session
    refine ⟨⟨⟨⟨⟨advertised, plain.rsaaeskey⟩, plain.fpaeskey⟩, plain.aesiv⟩, plain.connection⟩, ?_⟩
    unfold RaopRtp.new at created
    split at created
    · rename_i codec
      simp [format, codec]
    · cases created

/-- An ANNOUNCE that names a key creates encrypted sessions only, with the key and the vector of
its text, exactly unless the text is in order but gives no key and no vector a value. -/
theorem announce_encrypts_iff (env : Platform) (w : World) (request : Request)
    (response : HttpResponse) :
    (advertisesKey (announcedText request) = true →
      ∀ session, announcedSession env w request response = some session →
        UsesAnnouncedKey env w (announcedText request) session) ↔
      valuelessKey (announcedText request) = false := by
  constructor
  · intro encrypts
    by_contra valueless
    obtain ⟨advertised, session, plain⟩ :=
      (valuelessKey_iff _).mp ((Bool.not_eq_false _).mp valueless)
    obtain ⟨key, vector, iv, _, _, _, _, _, encrypted⟩ :=
      encrypts advertised session (announcedSession_of_createsPlain plain)
    obtain ⟨rtpmap, _, created⟩ := plain.session
    rw [encryption_of_new created] at encrypted
    cases encrypted
  · intro valued advertised session created
    rcases announcedSession_cases created with plain | uses
    · have valueless := (valuelessKey_iff _).mpr ⟨advertised, session, plain⟩
      rw [valued] at valueless
      cases valueless
    · exact uses

/-- An announcement of a key without a value, in a supported format. -/
def emptyKeyRequest : Request :=
  { method := some "ANNOUNCE", url := some "rtsp://10.0.0.2/1"
    body := some (Utf8.encode
      "v=0\r\nc=IN IP4 10.0.0.1\r\na=rtpmap:96 L16/44100/2\r\na=rsaaeskey:\r\n") }

/-- The key without a value is passed over, and the session is created without encryption. -/
theorem emptyKey_creates_plain_session :
    advertisesKey (announcedText emptyKeyRequest) = true ∧
      (announcedSession inertPlatform
        ⟨{ localAddr := [10, 0, 0, 2], nonce := "" }, {}, {}, []⟩ emptyKeyRequest
        (HttpResponse.new "RTSP/1.0" 200 "OK")).map RaopRtp.encryption = some none := by
  decide +kernel

end Shairplay.Raop
