import Shairplay.Crypto.ChachaTransport.Frames
import Shairplay.Net.Server.Blocks
import Shairplay.Raop.Connection.Channel

/-!
# Corrupted wires

`decrypt` works on everything that has arrived. When a frame does not open, it fails as a whole,
and the blocks of the frames before it in the same buffer are lost with it. A read that ends
before that frame has these blocks dispatched. So the requests of a corrupted wire depend on
where its reads fall, as far as the frames that fit into one read with the end of the bad frame
complete a request.
-/

namespace Shairplay.Raop

open Lib Crypto CipherContext Net Segment Connection

variable {lib : CryptoLib} {γ : Type} [RtspService γ] {httparse : Proto.Httparse}

/-- The handler with another context for decryption. -/
def RaopConnectionHandler.withDecrypt (decryptCtx : CipherContext)
    (h : RaopConnectionHandler lib γ) : RaopConnectionHandler lib γ :=
  { h with cipher := h.cipher.map fun channel => { channel with decryptCtx } }

open RaopConnectionHandler (withDecrypt)

/-- Requests and responses do not look at the context for decryption. -/
theorem unnoticed_withDecrypt (decryptCtx : CipherContext) :
    Unnoticed (fun h : RaopConnectionHandler lib γ => h.cipher.isSome = true)
      (withDecrypt decryptCtx) where
  connRequest h r active := by
    obtain ⟨channel, cipher⟩ := Option.isSome_iff_exists.mp active
    simp [ConnectionHandler.connRequest, RaopConnectionHandler.connRequest, withDecrypt, cipher]
  encryptOutgoing h data active := by
    obtain ⟨channel, cipher⟩ := Option.isSome_iff_exists.mp active
    simp [ConnectionHandler.encryptOutgoing, RaopConnectionHandler.encryptOutgoing,
      withDecrypt, cipher]
  afterResponse h active := by
    obtain ⟨channel, cipher⟩ := Option.isSome_iff_exists.mp active
    simp [ConnectionHandler.afterResponse, RaopConnectionHandler.afterResponse, withDecrypt, cipher]
  isEncrypted h := by
    simp [ConnectionHandler.isEncrypted, withDecrypt]
  requestBodyPolicy h := rfl

/-- A connection that is encrypted, before its first encrypted read. -/
structure Encrypted (s : Connection (RaopConnectionHandler lib γ)) (channel : EncryptedChannel) :
    Prop where
  isOpen : s.closed = false
  ready : Ready s
  reading : s.request.complete = false
  active : s.handler.cipher = some channel
  fresh : s.rawBuf = []

omit [RtspService γ] in
theorem Encrypted.idle {s : Connection (RaopConnectionHandler lib γ)} {channel : EncryptedChannel}
    (encrypted : Encrypted s channel) : Idle s := fun _ => ⟨encrypted.ready, encrypted.reading⟩

/-- All frames of the data open. -/
def authentic (aead : Aead) (ctx : CipherContext) (data : List UInt8) : Bool :=
  (ctx.blocksIn aead data).isSome

def blocksOfData (aead : Aead) (ctx : CipherContext) (data : List UInt8) : List (List UInt8) :=
  (ctx.blocksIn aead data).elim [] Prod.snd

/-- The requests that the blocks of the data complete, when each one is fed as soon as it has
arrived. -/
def requestsOf (httparse : Proto.Httparse) (s : Connection (RaopConnectionHandler lib γ))
    (channel : EncryptedChannel) (data : List UInt8) : List Proto.Request :=
  ((blocksOfData lib.aead channel.decryptCtx data).foldl (receive httparse) s).dispatchedRequests

section Growth

variable {aead : Aead} {ctx : CipherContext}

theorem authentic_of_append {xs ys : List UInt8} (good : authentic aead ctx (xs ++ ys) = true) :
    authentic aead ctx xs = true := by
  rw [authentic, blocksIn_append] at good
  cases first : ctx.blocksIn aead xs with
  | none => simp [first] at good
  | some opened => simp [authentic, first]

theorem blocksOfData_append {xs ys : List UInt8} (good : authentic aead ctx (xs ++ ys) = true) :
    ∃ more, blocksOfData aead ctx (xs ++ ys) = blocksOfData aead ctx xs ++ more := by
  rw [authentic, blocksIn_append] at good
  rw [blocksOfData, blocksOfData, blocksIn_append]
  cases first : ctx.blocksIn aead xs with
  | none => simp [first] at good
  | some opened =>
    rw [first, Option.bind_some] at good
    obtain ⟨rest, later⟩ := Option.isSome_iff_exists.mp (Option.isSome_map ▸ good)
    exact ⟨rest.2, by simp [later]⟩

theorem requestsOf_append {s : Connection (RaopConnectionHandler lib γ)}
    {channel : EncryptedChannel} {xs ys : List UInt8}
    (good : authentic lib.aead channel.decryptCtx (xs ++ ys) = true) :
    requestsOf httparse s channel xs <+: requestsOf httparse s channel (xs ++ ys) := by
  obtain ⟨more, blocks⟩ := blocksOfData_append good
  rw [requestsOf, requestsOf, blocks, List.foldl_append]
  exact dispatchedRequests_receive _ more

end Growth

/-- A connection that has received `data`, all of it authentic: its log shows what the blocks of
the data make of the connection at the start, and unless they have closed it, its state is theirs
as well. -/
structure HasReceived (httparse : Proto.Httparse) (start : Connection (RaopConnectionHandler lib γ))
    (ctx : CipherContext) (data : List UInt8) (s : Connection (RaopConnectionHandler lib γ)) :
    Prop where
  good : authentic lib.aead ctx data = true
  log : s.log = ((blocksOfData lib.aead ctx data).foldl (receive httparse) start).log
  closed : s.closed = ((blocksOfData lib.aead ctx data).foldl (receive httparse) start).closed
  state : s.closed = false → ∃ decryptCtx blocks,
    ctx.blocksIn lib.aead data = some (decryptCtx, blocks) ∧
      s = (blocks.foldl (receive httparse) start).reframe (withDecrypt decryptCtx) (waiting data)

/-- What waits leaves room for a read. -/
theorem length_waiting (data : List UInt8) : (waiting data).length < 65553 := by
  rcases waiting_incomplete data with short | short
  · omega
  · have field := Bytes.leNat_lt ((waiting data).take 2)
    have width : ((waiting data).take 2).length ≤ 2 := by simp
    have bound : 256 ^ ((waiting data).take 2).length ≤ 256 ^ 2 :=
      Nat.pow_le_pow_right (by decide) width
    simp only [frameLen, tagLen] at short
    omega

/-- The state that blocks leave behind. -/
theorem foldl_receive {start : Connection (RaopConnectionHandler lib γ)} (idle : Idle start)
    (active : start.handler.cipher.isSome = true) (blocks : List (List UInt8)) :
    Idle (blocks.foldl (receive httparse) start) ∧
      (blocks.foldl (receive httparse) start).handler.cipher.isSome = true := by
  induction blocks generalizing start with
  | nil => exact ⟨idle, active⟩
  | cons block blocks ih =>
    have unnoticed := @unnoticed_withDecrypt lib γ _ (.new [])
    exact ih (idle.receive block) (unnoticed.receive [] active block).2

theorem foldl_receive_of_closed {s : Connection (RaopConnectionHandler lib γ)}
    (closed : s.closed = true) (blocks : List (List UInt8)) :
    blocks.foldl (receive httparse) s = s := by
  induction blocks with
  | nil => rfl
  | cons block blocks ih => rw [List.foldl_cons, receive_of_closed closed, ih]

section Read

variable {t : Connection (RaopConnectionHandler lib γ)} {ctx : CipherContext}
  {rawBuf data : List UInt8}

/-- What decryption makes of a read. -/
theorem takePlaintext_reframe (active : t.handler.cipher.isSome = true)
    (room : rawBuf.length + data.length ≤ maxEncryptedBufferLen) :
    takePlaintext (t.handler.withDecrypt ctx) rawBuf data =
      (ctx.blocksIn lib.aead (rawBuf ++ data)).map fun opened =>
        (t.handler.withDecrypt opened.1, waiting (rawBuf ++ data), opened.2.flatten) := by
  obtain ⟨channel, cipher⟩ := Option.isSome_iff_exists.mp active
  have fits : ¬ maxEncryptedBufferLen - rawBuf.length < data.length := by omega
  have handled : ConnectionHandler.decryptIncoming (t.handler.withDecrypt ctx) (rawBuf ++ data) =
      (t.handler.withDecrypt (ctx.decrypt lib.aead (rawBuf ++ data)).1,
        (ctx.decrypt lib.aead (rawBuf ++ data)).2.toOption) := by
    simp [ConnectionHandler.decryptIncoming, RaopConnectionHandler.decryptIncoming,
      withDecrypt, cipher]
  simp only [takePlaintext, if_neg fits, handled]
  cases opened : ctx.blocksIn lib.aead (rawBuf ++ data) with
  | none =>
    obtain ⟨final, e, failed⟩ := decrypt_of_blocksIn_none opened
    rw [failed]
    rfl
  | some result =>
    have shorter := (waiting_suffix (rawBuf ++ data)).length_le
    have within : ¬ (rawBuf ++ data).length <
        (rawBuf ++ data).length - (waiting (rawBuf ++ data)).length := by omega
    have used : ¬ ((rawBuf ++ data).length - (waiting (rawBuf ++ data)).length = 0 ∧
        result.2.flatten ≠ []) := by
      rintro ⟨nothing, produced⟩
      exact produced (by rw [blocksIn_eq_nil opened (by omega)]; rfl)
    have behind := (List.suffix_iff_eq_drop.mp (waiting_suffix (rawBuf ++ data))).symm
    rw [decrypt_of_blocksIn opened]
    simp only [Except.toOption, if_neg within, if_neg used, behind, Option.map_some]

/-- A read goes through decryption. -/
theorem processRead_reframe (isOpen : t.closed = false) (active : t.handler.cipher.isSome = true)
    (more : data ≠ []) :
    (t.reframe (withDecrypt ctx) rawBuf).processRead httparse data =
      ((t.reframe (withDecrypt ctx) rawBuf).ingestEncryptedData httparse
        data).sendCompletedResponses httparse := by
  have encrypted : ConnectionHandler.isEncrypted
      (t.reframe (withDecrypt ctx) rawBuf).handler = true :=
    ((unnoticed_withDecrypt ctx).isEncrypted t.handler).trans active
  have going : (t.reframe (withDecrypt ctx) rawBuf).closed = false := isOpen
  rw [processRead, if_neg (by simp [going]), if_neg more]
  dsimp only
  rw [if_pos encrypted]

/-- A read whose frames all open feeds their blocks. -/
theorem processRead_opened {decryptCtx : CipherContext} {blocks : List (List UInt8)}
    (isOpen : t.closed = false) (idle : Idle t) (active : t.handler.cipher.isSome = true)
    (room : rawBuf.length + data.length ≤ maxEncryptedBufferLen) (more : data ≠ [])
    (opened : ctx.blocksIn lib.aead (rawBuf ++ data) = some (decryptCtx, blocks)) :
    (t.reframe (withDecrypt ctx) rawBuf).processRead httparse data =
      (t.receive httparse blocks.flatten).reframe (withDecrypt decryptCtx)
        (waiting (rawBuf ++ data)) := by
  have taken := @takePlaintext_reframe lib γ _ t ctx rawBuf data active room
  rw [opened, Option.map_some] at taken
  rw [processRead_reframe isOpen active more,
    ← ((unnoticed_withDecrypt decryptCtx).receive (waiting (rawBuf ++ data)) active _).1]
  simp only [ingestEncryptedData, reframe, taken]
  by_cases nothing : blocks.flatten = []
  · rw [if_pos nothing, receive, if_pos nothing]
    exact (idle.reframe (withDecrypt decryptCtx) _).sendCompletedResponses
  · rw [if_neg nothing, receive, if_neg nothing, feed, andThen_of_open (by exact isOpen)]

/-- A read with a frame that does not open ends the connection. -/
theorem processRead_unopened (isOpen : t.closed = false) (active : t.handler.cipher.isSome = true)
    (room : rawBuf.length + data.length ≤ maxEncryptedBufferLen) (more : data ≠ [])
    (fails : ctx.blocksIn lib.aead (rawBuf ++ data) = none) :
    (t.reframe (withDecrypt ctx) rawBuf).processRead httparse data =
      { t.reframe (withDecrypt ctx) rawBuf with closed := true } := by
  have taken := @takePlaintext_reframe lib γ _ t ctx rawBuf data active room
  rw [fails, Option.map_none] at taken
  rw [processRead_reframe isOpen active more]
  simp only [ingestEncryptedData, reframe, taken]
  refine Idle.sendCompletedResponses ?_
  rintro ⟨⟩

end Read

theorem processRead_of_closed {s : Connection (RaopConnectionHandler lib γ)}
    (closed : s.closed = true) (data : List UInt8) : s.processRead httparse data = s :=
  if_pos closed

theorem foldl_processRead_of_closed {s : Connection (RaopConnectionHandler lib γ)}
    (closed : s.closed = true) (reads : List (List UInt8)) :
    reads.foldl (processRead httparse) s = s := by
  induction reads with
  | nil => rfl
  | cons data reads ih => rw [List.foldl_cons, processRead_of_closed closed, ih]

namespace HasReceived

variable {start s : Connection (RaopConnectionHandler lib γ)} {ctx : CipherContext}
  {taken data : List UInt8}

/-- Once blocks have closed the connection, further ones change nothing. -/
theorem of_closed (received : HasReceived httparse start ctx taken s) (closed : s.closed = true)
    (good : authentic lib.aead ctx (taken ++ data) = true) :
    HasReceived httparse start ctx (taken ++ data) s := by
  obtain ⟨more, blocks⟩ := blocksOfData_append good
  have same : (blocksOfData lib.aead ctx (taken ++ data)).foldl (receive httparse) start =
      (blocksOfData lib.aead ctx taken).foldl (receive httparse) start := by
    rw [blocks, List.foldl_append]
    exact foldl_receive_of_closed (received.closed.symm.trans closed) more
  refine ⟨good, ?_, ?_, ?_⟩
  · rw [same]
    exact received.log
  · rw [same]
    exact received.closed
  · intro isOpen
    exact absurd (isOpen.symm.trans closed) Bool.false_ne_true

theorem read (idle : Idle start) (active : start.handler.cipher.isSome = true)
    (received : HasReceived httparse start ctx taken s) (sized : data ≠ [] ∧ data.length ≤ 4096) :
    (authentic lib.aead ctx (taken ++ data) = true →
      HasReceived httparse start ctx (taken ++ data) (s.processRead httparse data)) ∧
    (authentic lib.aead ctx (taken ++ data) = false →
      (s.processRead httparse data).log = s.log ∧ (s.processRead httparse data).closed = true) := by
  cases isOpen : s.closed with
  | true =>
    rw [processRead_of_closed isOpen]
    exact ⟨received.of_closed isOpen, fun _ => ⟨rfl, isOpen⟩⟩
  | false =>
    obtain ⟨decryptCtx, blocks, opened, rfl⟩ := received.state isOpen
    obtain ⟨quiet, encrypted⟩ := @foldl_receive lib γ _ httparse start idle active blocks
    have going : (blocks.foldl (receive httparse) start).closed = false := isOpen
    have room : (waiting taken).length + data.length ≤ maxEncryptedBufferLen := by
      have short := length_waiting taken
      simp only [maxEncryptedBufferLen]
      omega
    have together := @blocksIn_append lib.aead ctx taken data
    rw [opened, Option.bind_some] at together
    cases next : decryptCtx.blocksIn lib.aead (waiting taken ++ data) with
    | none =>
      rw [next, Option.map_none] at together
      rw [processRead_unopened going encrypted room sized.1 next]
      exact ⟨fun good => by simp [authentic, together] at good, fun _ => ⟨rfl, rfl⟩⟩
    | some result =>
      rw [next, Option.map_some] at together
      rw [processRead_opened going quiet encrypted room sized.1 next]
      refine ⟨fun good => ?_, fun bad => by simp [authentic, together] at bad⟩
      have all : blocksOfData lib.aead ctx (taken ++ data) = blocks ++ result.2 := by
        simp [blocksOfData, together]
      have same := @receive_flatten _ _ httparse _ quiet result.2
      rw [← List.foldl_append] at same
      refine ⟨good, ?_, ?_, ?_⟩
      · rw [all]
        exact same.log
      · rw [all]
        exact same.closed
      · intro isOpen
        refine ⟨result.1, blocks ++ result.2, together, ?_⟩
        rw [same.state isOpen, ← waiting_append taken data]

/-- A sequence of reads shows the requests of what was taken in. -/
theorem reads {channel : EncryptedChannel} (idle : Idle start)
    (active : start.handler.cipher.isSome = true)
    (received : HasReceived httparse start channel.decryptCtx taken s) {reads : List (List UInt8)}
    (sized : Sized 4096 reads) :
    (reads.foldl (processRead httparse) s).dispatchedRequests = requestsOf httparse start channel
        (survivors (authentic lib.aead channel.decryptCtx) taken reads) := by
  induction reads generalizing s taken with
  | nil =>
    rw [List.foldl_nil, survivors, requestsOf, dispatchedRequests, dispatchedRequests, received.log]
  | cons data reads ih =>
    obtain ⟨good, bad⟩ := received.read idle active (sized data (by simp))
    rw [List.foldl_cons, survivors]
    cases next : authentic lib.aead channel.decryptCtx (taken ++ data) with
    | true =>
      rw [if_pos rfl]
      exact ih (good next) fun chunk mem => sized chunk (List.mem_cons_of_mem data mem)
    | false =>
      obtain ⟨log, closed⟩ := bad next
      rw [foldl_processRead_of_closed closed, if_neg Bool.false_ne_true, requestsOf,
        dispatchedRequests, dispatchedRequests, log, received.log]

end HasReceived

/-- The requests of an encrypted connection do not depend on where its reads fall, just when no
request is completed by frames that fit into one read with the end of a frame that does not
open. -/
theorem encrypted_segmentation_iff (httparse : Proto.Httparse)
    (s : Connection (RaopConnectionHandler lib γ)) (channel : EncryptedChannel)
    (encrypted : Encrypted s channel) (wire : List UInt8) :
    (∀ reads reads' : List (List UInt8), Sized 4096 reads → Sized 4096 reads' →
        reads.flatten = wire → reads'.flatten = wire →
        (reads.foldl (processRead httparse) s).dispatchedRequests =
          (reads'.foldl (processRead httparse) s).dispatchedRequests) ↔
      ∀ n, authentic lib.aead channel.decryptCtx (wire.take n) = true →
        authentic lib.aead channel.decryptCtx (wire.take (n + 1)) = false →
          requestsOf httparse s channel (wire.take (n + 1 - 4096)) =
            requestsOf httparse s channel (wire.take n) := by
  have active : s.handler.cipher.isSome = true := by rw [encrypted.active]; rfl
  have nothing : channel.decryptCtx.blocksIn lib.aead [] = some (channel.decryptCtx, []) := rfl
  have same : s.reframe (withDecrypt channel.decryptCtx) [] = s := by
    have handler : s.handler.withDecrypt channel.decryptCtx = s.handler := by
      rw [withDecrypt, encrypted.active, Option.map_some, ← encrypted.active]
    rw [reframe, handler, ← encrypted.fresh]
  have start : HasReceived httparse s channel.decryptCtx [] s :=
    ⟨rfl, rfl, rfl, fun _ => ⟨channel.decryptCtx, [], nothing, same.symm⟩⟩
  have shows {reads : List (List UInt8)} (sized : Sized 4096 reads) :=
    start.reads encrypted.idle active sized
  rw [← survivors_independent_iff (fun _ _ => authentic_of_append) rfl
    (fun _ _ => requestsOf_append) (by decide)]
  constructor
  · intro independent cut cut' sized sized' whole whole'
    rw [← shows sized, ← shows sized']
    exact independent cut cut' sized sized' whole whole'
  · intro independent reads reads' sized sized' whole whole'
    rw [shows sized, shows sized']
    exact independent reads reads' sized sized' whole whole'

def tagCheck : Aead where
  encrypt _ _ _ msg := some (msg ++ zeroTag)
  decrypt _ _ _ ct :=
    if ct.drop (ct.length - tagLen) = zeroTag then some (ct.take (ct.length - tagLen)) else none

/-- A connection whose channel has just become active. -/
def activeConnection : Connection (RaopConnectionHandler (cipherOnly tagCheck) QuietService) :=
  accept { conn := .quiet, cipher := some ⟨.new [], .new []⟩ }

theorem activeConnection_encrypted : Encrypted activeConnection ⟨.new [], .new []⟩ :=
  ⟨rfl, ready_accept _, rfl, rfl, rfl⟩

/-- A frame with a request, and the same frame with another tag. -/
def optionsFrame : List UInt8 := lengthField optionsRequest ++ (optionsRequest ++ zeroTag)

def forgedFrame : List UInt8 :=
  lengthField optionsRequest ++ (optionsRequest ++ List.replicate tagLen 1)

/-- A request is dispatched when it arrives before the forged frame, and lost when it arrives
with it. -/
theorem coalesced_request_lost :
    Sized 4096 [optionsFrame, forgedFrame] ∧ Sized 4096 [optionsFrame ++ forgedFrame] ∧
      [optionsFrame, forgedFrame].flatten = [optionsFrame ++ forgedFrame].flatten ∧
      ([optionsFrame, forgedFrame].foldl (processRead smallRequests)
        activeConnection).dispatchedRequests.length = 1 ∧
      ([optionsFrame ++ forgedFrame].foldl (processRead smallRequests)
        activeConnection).dispatchedRequests = [] := by
  decide +kernel

def byteFrame : List UInt8 := lengthField [65] ++ ([65] ++ zeroTag)

/-- A request, many frames that complete no other one, and a forged frame. -/
def corruptedWire : List UInt8 :=
  optionsFrame ++ (List.replicate 216 byteFrame).flatten ++ forgedFrame

/-- This corrupted wire gives its request in every way: the request and the end of the forged frame
do not fit into one read. -/
theorem encrypted_segmentation_corrupted :
    ([optionsFrame, (List.replicate 215 byteFrame).flatten, byteFrame ++ forgedFrame].foldl
        (processRead smallRequests) activeConnection).dispatchedRequests.length = 1 ∧
      ([optionsFrame, (List.replicate 215 byteFrame).flatten, byteFrame ++ forgedFrame].foldl
          (processRead smallRequests) activeConnection).dispatchedRequests =
        ([corruptedWire.take 4096, corruptedWire.drop 4096].foldl (processRead smallRequests)
          activeConnection).dispatchedRequests := by
  have frames : (List.replicate 216 byteFrame).flatten =
      (List.replicate 215 byteFrame).flatten ++ byteFrame := by
    rw [List.replicate_succ', List.flatten_append, List.flatten_cons, List.flatten_nil,
      List.append_nil]
  refine ⟨by decide +kernel, ?_⟩
  refine (encrypted_segmentation_iff smallRequests activeConnection _ activeConnection_encrypted
    corruptedWire).mpr ?_ _ _ (by decide +kernel) (by decide +kernel) ?_ ?_
  rotate_left
  · simp only [corruptedWire, frames, List.flatten_cons, List.flatten_nil, List.append_nil,
      List.append_assoc]
  · rw [List.flatten_cons, List.flatten_cons, List.flatten_nil, List.append_nil,
      List.take_append_drop]
  intro n good spoiled
  have size : corruptedWire.length = 4184 := by decide +kernel
  have before : authentic tagCheck (.new []) (corruptedWire.take 4183) = true := by decide +kernel
  -- only the last byte of the wire spoils it
  have last : n = 4183 := by
    rcases Nat.lt_trichotomy n 4183 with early | same | late
    · have start : (corruptedWire.take 4183).take (n + 1) = corruptedWire.take (n + 1) := by
        rw [List.take_take, Nat.min_eq_left early]
      rw [← List.take_append_drop (n + 1) (corruptedWire.take 4183), start] at before
      cases (authentic_of_append before).symm.trans spoiled
    · exact same
    · rw [List.take_of_length_le (by omega)] at good spoiled
      cases good.symm.trans spoiled
  subst last
  decide +kernel

end Shairplay.Raop
