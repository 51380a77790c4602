import AvaListener.Library.JsonWire

/-!
# JSON over TCP between supervisor and worker

`send_json` writes one compact JSON text and a line feed; `recv_json` takes
whatever one `recv(65536)` returns for one message.  TCP is free to cut and to
coalesce the stream, so a run of the receiver is a list of chunks whose
concatenation is the stream; after the last chunk `recv` returns nothing.

What is sent is ASCII (`dumps_printable`), so a byte of the stream is a character.

The receive loops of `IPCServer._accept_loop` and `IPCClient._recv_loop` are the
same: they call `recv_json` until it returns `None`.
-/

namespace AvaListener
namespace Ipc

open Library Library.Json

variable {ν : Type} (N : Numbers ν)

/-! ## The code -/

/-- A dictionary that can be sent: distinct keys and well-formed strings. -/
structure Message (ν : Type) where
  members : List (List ℕ × Value ν)
  wf : WF (.obj members)

def Message.value (m : Message ν) : Value ν := .obj m.members

/-- The bytes `send_json` writes. -/
def sendJson (obj : Value ν) : Text := dumps N obj ++ ['\n']

/-- `None` is what `json.loads` returns for `null`. -/
def notNone : Value ν → Option (Value ν)
  | .lit .null => none
  | v => some v

/-- The first line that is a JSON text decides. -/
def firstLine (text : Text) : Option (Value ν) :=
  (((splitLines text).map strip).filter (· ≠ [])).findSome? (loads N)

/-- `recv_json` on what `sock.recv(65536)` returned. -/
def recvJson (data : Text) : Option (Value ν) :=
  if data = [] then none
  else
    let text := strip data
    match loads N text with
    | some v => notNone v
    | none => (firstLine N text).bind notNone

/-- The receive loop on the chunks still to come: the objects it hands to its
callback, and whether it stopped at the end of the stream. -/
def recvLoop : List Text → List (Value ν) × Bool
  | [] => ([], true)
  | data :: rest =>
      match recvJson N data with
      | none => ([], false)
      | some v => (v :: (recvLoop rest).1, (recvLoop rest).2)

/-! ## The stream -/

/-- What the peer wrote. -/
def stream (msgs : List (Message ν)) : Text :=
  msgs.flatMap fun m => sendJson N m.value

/-- The chunks in which the stream of these messages may arrive. -/
structure Segmentation (msgs : List (Message ν)) (chunks : List Text) : Prop where
  flatten : chunks.flatten = stream N msgs
  nonempty : ∀ data ∈ chunks, data ≠ []
  bounded : ∀ data ∈ chunks, data.length ≤ 65536

/-- The receiver hands over exactly what was sent and stops at the end of the
stream. -/
def Delivers (msgs : List (Message ν)) (chunks : List Text) : Prop :=
  recvLoop N chunks = (msgs.map Message.value, true)

/-- Every chunk is one frame, with line feeds or other white space around it. -/
def OneFrameAChunk (msgs : List (Message ν)) (chunks : List Text) : Prop :=
  chunks.map strip = msgs.map fun m => dumps N m.value

theorem stream_cons (m : Message ν) (msgs : List (Message ν)) :
    stream N (m :: msgs) = dumps N m.value ++ '\n' :: stream N msgs := by
  simp [stream, sendJson]

theorem stream_onWire (msgs : List (Message ν)) : OnWire (stream N msgs) := by
  intro c hc
  obtain ⟨m, -, hframe⟩ := List.mem_flatMap.mp hc
  rcases List.mem_append.mp hframe with htext | hend
  · exact .inl (dumps_printable N m.value c htext)
  · exact .inr (List.mem_singleton.mp hend)

/-- A frame's text starts and ends with a brace. -/
theorem dumps_braces (m : Message ν) :
    ∃ body, dumps N m.value = '\x7b' :: body ++ ['\x7d'] := by
  exact ⟨dumpsMembers N m.members, by rw [Message.value, dumps]⟩

theorem strip_dumps (m : Message ν) : strip (dumps N m.value) = dumps N m.value := by
  obtain ⟨body, hbody⟩ := dumps_braces N m
  rw [hbody]
  refine strip_eq_self ?_ ?_
  · intro c hc
    obtain rfl := Option.some.inj hc
    decide
  · intro c hc
    rw [List.getLast?_concat] at hc
    obtain rfl := Option.some.inj hc
    decide

/-! ## What a chunk can yield -/

/-- The line feed is white space. -/
theorem lineFeeds_space {cs : Text} (h : ∀ c ∈ cs, c = '\n') : ∀ c ∈ cs, isSpace c = true := by
  intro c hc
  rw [h c hc]
  decide

/-- The line feed weighs nothing. -/
theorem lineFeeds_weight {cs : Text} (h : ∀ c ∈ cs, c = '\n') : weight cs = 0 := by
  apply weight_eq_zero
  intro c hc
  rw [h c hc]
  decide

theorem notNone_eq_some {v w : Value ν} (h : notNone v = some w) : v = w := by
  unfold notNone at h
  split at h
  · cases h
  · exact Option.some.inj h

theorem firstLine_weight {text : Text} {v : Value ν} (hwire : OnWire text)
    (h : firstLine N text = some v) : weight (dumps N v) ≤ weight text := by
  obtain ⟨line, hline, hloads⟩ := List.exists_of_findSome?_eq_some h
  obtain ⟨hmem, -⟩ := List.mem_filter.mp hline
  obtain ⟨raw, hraw, rfl⟩ := List.mem_map.mp hmem
  have hpart : strip raw <:+: text := (strip_isInfix raw).trans (mem_splitLines hraw).1
  have hpiece : OnWire (strip raw) := fun c hc => hwire c (hpart.subset hc)
  exact le_trans (loads_weight N hpiece hloads) (weight_le_of_sublist hpart.sublist)

/-- A chunk yields no more than it holds. -/
theorem recvJson_weight {data : Text} {v : Value ν} (hwire : OnWire data)
    (h : recvJson N data = some v) : weight (dumps N v) ≤ weight data := by
  have hpart : strip data <:+: data := strip_isInfix data
  have hpiece : OnWire (strip data) := fun c hc => hwire c (hpart.subset hc)
  have hle : weight (strip data) ≤ weight data := weight_le_of_sublist hpart.sublist
  unfold recvJson at h
  split at h
  · cases h
  · simp only at h
    split at h
    next w hloads =>
      obtain rfl := notNone_eq_some h
      exact le_trans (loads_weight N hpiece hloads) hle
    next =>
      obtain ⟨w, hw, hsome⟩ := Option.bind_eq_some_iff.mp h
      obtain rfl := notNone_eq_some hsome
      exact le_trans (firstLine_weight N hpiece hw) hle

/-- A chunk that is one frame yields that frame's message. -/
theorem recvJson_frame {data : Text} {m : Message ν} (h : strip data = dumps N m.value) :
    recvJson N data = some m.value := by
  have hne : data ≠ [] := by
    rintro rfl
    obtain ⟨body, hbody⟩ := dumps_braces N m
    rw [hbody] at h
    cases h
  have hloads : loads N (dumps N m.value) = some m.value := loads_dumps N m.wf
  unfold recvJson
  rw [if_neg hne]
  simp only [h, hloads]
  rfl

/-- The loop reaches the end of the stream exactly when every chunk yields a
message. -/
theorem recvLoop_eq_iff (chunks : List Text) (vs : List (Value ν)) :
    recvLoop N chunks = (vs, true) ↔ chunks.map (recvJson N) = vs.map some := by
  induction chunks generalizing vs with
  | nil => cases vs with
      | nil => simp [recvLoop]
      | cons v vs => simp [recvLoop]
  | cons data rest ih =>
      cases hdata : recvJson N data with
      | none => cases vs with
          | nil => simp [recvLoop, hdata]
          | cons v vs => simp [recvLoop, hdata]
      | some w => cases vs with
          | nil => simp [recvLoop, hdata]
          | cons v vs =>
              have htail := ih vs
              rw [Prod.ext_iff] at htail
              simp only [recvLoop, hdata, List.map_cons, List.cons.injEq, Option.some.injEq,
                Prod.mk.injEq, and_assoc]
              rw [← htail]

/-! ## Delivery -/

theorem delivers_of_oneFrameAChunk {msgs : List (Message ν)} {chunks : List Text}
    (h : OneFrameAChunk N msgs chunks) : Delivers N msgs chunks := by
  rw [Delivers, recvLoop_eq_iff]
  unfold OneFrameAChunk at h
  induction chunks generalizing msgs with
  | nil => cases msgs with
      | nil => rfl
      | cons m msgs => cases h
  | cons data rest ih => cases msgs with
      | nil => cases h
      | cons m msgs =>
          obtain ⟨hhead, htail⟩ := List.cons.inj h
          rw [List.map_cons, List.map_cons, List.map_cons, recvJson_frame N hhead, ih htail]

/-- The total weight of a list of texts. -/
def totalWeight (texts : List Text) : ℕ := (texts.map weight).sum

theorem totalWeight_flatten (texts : List Text) : weight texts.flatten = totalWeight texts := by
  induction texts with
  | nil => rfl
  | cons t rest ih => simp [totalWeight, ih]

theorem weight_stream (msgs : List (Message ν)) :
    weight (stream N msgs) = totalWeight (msgs.map fun m => dumps N m.value) := by
  induction msgs with
  | nil => rfl
  | cons m msgs ih =>
      have hend : weight ('\n' :: stream N msgs) = weight (stream N msgs) := by
        rw [weight_cons]
        simp [show isLight '\n' = true by decide]
      rw [stream_cons, weight_append, hend, ih]
      simp [totalWeight]

/-- A front part of the stream with the weight of the first frame is that frame,
with at most the line feeds around it. -/
theorem front_of_weight {lead data rest : Text} {m : Message ν} {msgs : List (Message ν)}
    (hlead : ∀ c ∈ lead, c = '\n')
    (hstream : data ++ rest = lead ++ stream N (m :: msgs))
    (hweight : weight data = weight (dumps N m.value)) :
    strip data = dumps N m.value ∧
      ∃ lead', (∀ c ∈ lead', c = '\n') ∧ rest = lead' ++ stream N msgs := by
  have hspace := lineFeeds_space hlead
  have hleadWeight := lineFeeds_weight hlead
  rw [stream_cons, ← List.append_assoc] at hstream
  rcases List.append_eq_append_iff.mp hstream with ⟨cut, hframe, hrest⟩ | ⟨extra, hdata, hextra⟩
  · -- The chunk ends inside the frame: nothing heavy may be missing.
    have htotal : weight lead + weight (dumps N m.value) = weight data + weight cut := by
      rw [← weight_append, ← weight_append, hframe]
    have hcut : cut = [] := by
      by_contra hne
      obtain ⟨body, hbody⟩ := dumps_braces N m
      have hlast : cut.getLast? = some '\x7d' := by
        have hboth : (data ++ cut).getLast? = some '\x7d' := by
          rw [← hframe, hbody, ← List.append_assoc, List.getLast?_concat]
        rwa [List.getLast?_append_of_ne_nil _ hne] at hboth
      have hmem : '\x7d' ∈ cut := List.mem_of_getLast? hlast
      have hheavy : 0 < weight cut := by
        rw [weight, List.countP_pos_iff]
        exact ⟨_, hmem, by decide⟩
      omega
    subst hcut
    rw [List.append_nil] at hframe
    refine ⟨?_, ['\n'], by simp, by simpa using hrest⟩
    rw [← hframe, strip_append_of_space hspace, strip_dumps]
  · -- The chunk ends behind the frame: nothing heavy may have been taken.
    have htotal : weight data = weight lead + weight (dumps N m.value) + weight extra := by
      rw [hdata, weight_append, weight_append]
    have hlight : weight extra = 0 := by omega
    cases extra with
    | nil =>
        refine ⟨?_, ['\n'], by simp, by simpa using hextra.symm⟩
        rw [hdata, List.append_nil, strip_append_of_space hspace, strip_dumps]
    | cons c extra =>
        obtain ⟨rfl, htail⟩ := List.cons.inj hextra
        have hextra' : extra = [] := by
          cases extra with
          | nil => rfl
          | cons d extra =>
              exfalso
              cases msgs with
              | nil => cases htail
              | cons m' msgs =>
                  obtain ⟨body, hbody⟩ := dumps_braces N m'
                  rw [stream_cons, hbody] at htail
                  obtain ⟨rfl, -⟩ := List.cons.inj htail
                  rw [weight_cons, weight_cons_heavy (by decide)] at hlight
                  omega
        subst hextra'
        refine ⟨?_, [], by simp, by simpa using htail.symm⟩
        have hend : ∀ c ∈ ['\n'], isSpace c = true := List.all_eq_true.mp (by decide)
        rw [hdata, strip_append_of_space_right hend, strip_append_of_space hspace, strip_dumps]

/-- Chunks that weigh at least as much as their messages are the frames. -/
theorem oneFrameAChunk_of_weights {chunks : List Text} {msgs : List (Message ν)} {lead : Text}
    (hlead : ∀ c ∈ lead, c = '\n') (hflatten : chunks.flatten = lead ++ stream N msgs)
    (hweights : List.Forall₂ (fun data m => weight (dumps N m.value) ≤ weight data) chunks msgs) :
    OneFrameAChunk N msgs chunks := by
  induction hweights generalizing lead with
  | nil => rfl
  | @cons data m rest msgs hhead htail ih =>
      have hleadWeight := lineFeeds_weight hlead
      have htotal : totalWeight (data :: rest) =
          totalWeight ((m :: msgs).map fun m => dumps N m.value) := by
        rw [← totalWeight_flatten, hflatten, weight_append, weight_stream, hleadWeight,
          Nat.zero_add]
      have hrest : totalWeight (msgs.map fun m => dumps N m.value) ≤ totalWeight rest := by
        clear ih hflatten htotal
        induction htail with
        | nil => exact le_refl _
        | cons hle _ ih =>
            simp only [totalWeight, List.map_cons, List.sum_cons] at ih ⊢
            omega
      have hweight : weight data = weight (dumps N m.value) := by
        simp only [totalWeight, List.map_cons, List.sum_cons] at htotal hrest
        omega
      rw [List.flatten_cons] at hflatten
      obtain ⟨hstrip, lead', hlead', hnext⟩ := front_of_weight N hlead hflatten hweight
      have htailFrames := ih hlead' hnext
      unfold OneFrameAChunk at htailFrames ⊢
      rw [List.map_cons, List.map_cons, hstrip, htailFrames]

/-- **Exactly when the receiver gets what was sent**: whatever the messages and
however their stream is cut, the loop hands over the sent sequence and stops at
the end of the stream if and only if every chunk carries one whole frame. -/
theorem delivers_iff_oneFrameAChunk {msgs : List (Message ν)} {chunks : List Text}
    (hcut : Segmentation N msgs chunks) :
    Delivers N msgs chunks ↔ OneFrameAChunk N msgs chunks := by
  refine ⟨?_, delivers_of_oneFrameAChunk N⟩
  intro hdelivers
  rw [Delivers, recvLoop_eq_iff] at hdelivers
  have hwire : ∀ data ∈ chunks, OnWire data := by
    intro data hdata c hc
    refine stream_onWire N msgs c ?_
    rw [← hcut.flatten]
    exact List.mem_flatten.mpr ⟨data, hdata, hc⟩
  refine oneFrameAChunk_of_weights N (List.forall_mem_nil _) hcut.flatten ?_
  have hyield : List.Forall₂ (fun data m => recvJson N data = some m.value) chunks msgs := by
    have heq := List.forall₂_eq_eq_eq.symm ▸ hdelivers
    rw [List.map_map] at heq
    exact List.forall₂_map_left_iff.mp (List.forall₂_map_right_iff.mp heq)
  have hboth := (List.forall₂_and_left chunks msgs).mpr ⟨hwire, hyield⟩
  exact hboth.imp fun data m h => recvJson_weight N h.1 h.2

/-! ## The first two messages of a worker -/

/-- A text as a JSON string. -/
def ofAscii (t : Text) : List ℕ := t.map Char.toNat

/-- A worker's `{"type": …, "payload": {"ts": …}}`, here at one fixed time. -/
def timedMembers (type : Text) (payload : List (List ℕ × Value {t : Text // IsToken t})) :
    List (List ℕ × Value {t : Text // IsToken t}) :=
  [ (ofAscii "type".toList, .str (ofAscii type)),
    (ofAscii "payload".toList,
      .obj (payload ++ [(ofAscii "ts".toList, .num ⟨"1.5".toList, by decide⟩)])) ]

/-- `{"type":"STATUS","payload":{"status":"worker_starting","ts":1.5}}`. -/
def workerStarting : Message {t : Text // IsToken t} where
  members := timedMembers "STATUS".toList
    [ (ofAscii "status".toList,
        .str (ofAscii "worker_starting".toList)) ]
  wf := by
    simp only [timedMembers, List.cons_append, List.nil_append, WF, WFMembers, WFString]
    decide +kernel

/-- `{"type":"HEARTBEAT","payload":{"ts":1.5}}`. -/
def heartbeat : Message {t : Text // IsToken t} where
  members := timedMembers "HEARTBEAT".toList []
  wf := by
    simp only [timedMembers, List.nil_append, WF, WFMembers, WFString]
    decide +kernel

/-- One frame a chunk, the second line feed arriving with neither. -/
theorem workerStart_delivered :
    Segmentation tokenNumbers [workerStarting, heartbeat]
        [sendJson tokenNumbers workerStarting.value, sendJson tokenNumbers heartbeat.value] ∧
      (Delivers tokenNumbers [workerStarting, heartbeat]
          [sendJson tokenNumbers workerStarting.value, sendJson tokenNumbers heartbeat.value] ↔
        OneFrameAChunk tokenNumbers [workerStarting, heartbeat]
          [sendJson tokenNumbers workerStarting.value, sendJson tokenNumbers heartbeat.value]) := by
  have hcut : Segmentation tokenNumbers [workerStarting, heartbeat]
      [sendJson tokenNumbers workerStarting.value, sendJson tokenNumbers heartbeat.value] :=
    ⟨by decide +kernel, by decide +kernel, by decide +kernel⟩
  exact ⟨hcut, delivers_iff_oneFrameAChunk tokenNumbers hcut⟩

/-- Both frames in one chunk: only the first message is handed over. -/
theorem workerStart_coalesced :
    Segmentation tokenNumbers [workerStarting, heartbeat]
        [stream tokenNumbers [workerStarting, heartbeat]] ∧
      ¬ Delivers tokenNumbers [workerStarting, heartbeat]
        [stream tokenNumbers [workerStarting, heartbeat]] := by
  refine ⟨⟨by decide +kernel, by decide +kernel, by decide +kernel⟩, ?_⟩
  intro hdelivers
  have hcount : (recvLoop tokenNumbers
      [stream tokenNumbers [workerStarting, heartbeat]]).1.length = 1 := by decide +kernel
  rw [hdelivers] at hcount
  cases hcount

end Ipc
end AvaListener
