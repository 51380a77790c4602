import Mathlib.Tactic.Linarith
import Mathlib.Tactic.Ring
import AvaListener.Library.PyText
import AvaListener.Library.TextSearch

/-!
# The port of the supervisor

`spawnSupervisor` of `node/process_manager.js` learns the port of the WebSocket server
from the line that the server logs on the standard error stream,

    WebSocket Server listening on ws://127.0.0.1:<port>

and looks for it in every `'data'` chunk by itself.  The stream may be cut into chunks
anywhere.  Where the cut is in the line, `spawnSupervisor` does not see it; where it is
in the port's digits, it resolves with the digits before the cut.
-/

namespace AvaListener
namespace Sdk

open Library

/-! ## What the code looks for -/

def marker : Text := "WebSocket Server listening on ws://".toList

def address : Text := "ws://127.0.0.1:".toList

/-- What comes before the address in the server's line. -/
def preface : Text := "WebSocket Server listening on ".toList

/-- What comes before the port. -/
def announcement : Text := "WebSocket Server listening on ws://127.0.0.1:".toList

theorem append_announcement (u rest : Text) :
    u ++ announcement ++ rest = (u ++ preface) ++ address ++ rest := by
  rw [show announcement = preface ++ address from rfl]
  simp only [List.append_assoc]

/-- `\d`. -/
def isDigit (c : Char) : Bool := 48 ≤ c.toNat ∧ c.toNat ≤ 57

/-- `parseInt(.., 10)` of digits. -/
def parseInt (digits : Text) : ℕ :=
  digits.foldl (fun n c => 10 * n + (c.toNat - 48)) 0

/-- The group of `/ws:\/\/127\.0\.0\.1:(\d+)/` where it matches at the head. -/
def portHere (text : Text) : Option Text :=
  if address <+: text then
    match (text.drop address.length).takeWhile isDigit with
    | [] => none
    | digits => some digits
  else none

/-- `line.match(/ws:\/\/127\.0\.0\.1:(\d+)/)`. -/
def matchPort (line : Text) : Option Text :=
  line.tails.findSome? portHere

/-- The port that the listener of one chunk resolves with. -/
def portIn (data : Text) : Option ℕ :=
  (data.splitOnP (· = '\n')).findSome? fun line =>
    if occursIn marker line then (matchPort line).map parseInt else none

/-- The port that `spawnSupervisor` resolves with. -/
def resolvedPort (chunks : List Text) : Option ℕ :=
  chunks.findSome? portIn

/-! ## One chunk -/

theorem portHere_eq_some {text digits : Text} :
    portHere text = some digits ↔
      ∃ rest, text = address ++ rest ∧ rest.takeWhile isDigit = digits ∧ digits ≠ [] := by
  unfold portHere
  constructor
  · intro h
    split at h
    next haddress =>
      obtain ⟨rest, rfl⟩ := haddress
      rw [List.drop_left] at h
      split at h
      · cases h
      next hsome =>
        obtain rfl := Option.some.inj h
        exact ⟨rest, rfl, rfl, hsome⟩
    · cases h
  · rintro ⟨rest, rfl, rfl, hsome⟩
    rw [if_pos (List.prefix_append _ _), List.drop_left]
    split
    next hnone => exact absurd hnone hsome
    · rfl

/-- The address occurs in the text, and these digits come after it. -/
def ShowsPort (text digits : Text) : Prop :=
  ∃ u rest, text = u ++ address ++ rest ∧ rest.takeWhile isDigit = digits ∧ digits ≠ []

theorem showsPort_of_matchPort {line digits : Text} (h : matchPort line = some digits) :
    ShowsPort line digits := by
  obtain ⟨tail, htail, hhere⟩ := List.exists_of_findSome?_eq_some h
  obtain ⟨u, rfl⟩ := (List.mem_tails _ _).mp htail
  obtain ⟨rest, rfl, hdigits, hsome⟩ := portHere_eq_some.mp hhere
  exact ⟨u, rest, (List.append_assoc ..).symm, hdigits, hsome⟩

/-- If the line shows one port only, that is the one found. -/
theorem matchPort_of_showsPort {line digits : Text} (h : ShowsPort line digits)
    (honly : ∀ other, ShowsPort line other → other = digits) : matchPort line = some digits := by
  obtain ⟨u, rest, rfl, hdigits, hsome⟩ := h
  refine findSome?_eq_some_of_forall (x := address ++ rest) ?_ ?_ ?_
  · intro tail htail other hother
    obtain ⟨v, hv⟩ := (List.mem_tails _ _).mp htail
    obtain ⟨after, rfl, hafter, hne⟩ := portHere_eq_some.mp hother
    exact honly other ⟨v, after, by rw [← hv, List.append_assoc], hafter, hne⟩
  · exact (List.mem_tails _ _).mpr ⟨u, (List.append_assoc ..).symm⟩
  · exact portHere_eq_some.mpr ⟨rest, rfl, hdigits, hsome⟩

theorem not_digit_of_head {after : Text} (h : ∀ x ∈ after.head?, (decide (x = '\n')) = true) :
    ∀ x ∈ after.head?, isDigit x = false := by
  intro x hx
  obtain rfl := of_decide_eq_true (h x hx)
  decide

/-- What a line shows, its chunk shows. -/
theorem showsPort_of_line {data line digits : Text} (hline : line ∈ data.splitOnP (· = '\n'))
    (h : ShowsPort line digits) : ShowsPort data digits := by
  obtain ⟨-, before, after, rfl, -, hafter⟩ := mem_splitOnP_iff.mp hline
  obtain ⟨u, rest, rfl, rfl, hsome⟩ := h
  refine ⟨before ++ u, rest ++ after, by simp, ?_, hsome⟩
  exact takeWhile_append_of_head rest (not_digit_of_head hafter)

theorem isInfix_of_line {data line : Text} (hline : line ∈ data.splitOnP (· = '\n')) :
    line <:+: data := by
  obtain ⟨-, before, after, rfl, -⟩ := mem_splitOnP_iff.mp hline
  exact ⟨before, after, rfl⟩

/-- **What a chunk must show** for the listener to resolve. -/
theorem showsPort_of_portIn {data : Text} {port : ℕ} (h : portIn data = some port) :
    marker <:+: data ∧ ∃ digits, ShowsPort data digits ∧ port = parseInt digits := by
  obtain ⟨line, hline, hport⟩ := List.exists_of_findSome?_eq_some h
  obtain ⟨hmarker, hport⟩ := Option.ite_none_right_eq_some.mp hport
  obtain ⟨digits, hdigits, rfl⟩ := Option.map_eq_some_iff.mp hport
  refine ⟨(of_decide_eq_true hmarker).trans (isInfix_of_line hline), digits, ?_, rfl⟩
  exact showsPort_of_line hline (showsPort_of_matchPort hdigits)

/-- **What is enough**, if the chunk shows no other port. -/
theorem portIn_of_announcement {u rest digits : Text} (hdigits : rest.takeWhile isDigit = digits)
    (hsome : digits ≠ [])
    (honly : ∀ other, ShowsPort (u ++ announcement ++ rest) other → other = digits) :
    portIn (u ++ announcement ++ rest) = some (parseInt digits) := by
  have hclean : ∀ x ∈ announcement, decide (x = '\n') = false := by
    intro x hx
    exact decide_eq_false (ne_of_mem_of_not_mem hx (by decide))
  obtain ⟨start, hline⟩ := exists_piece (p := (· = '\n')) hclean u rest
  have hshows : ShowsPort (start ++ announcement ++ rest.takeWhile fun x => !decide (x = '\n'))
      digits := by
    refine ⟨start ++ preface, _, append_announcement .., ?_, hsome⟩
    · have hcut := List.takeWhile_append_dropWhile (p := fun x => !decide (x = '\n')) (l := rest)
      have hnext := not_digit_of_head (head?_dropWhile_sep (fun x => decide (x = '\n')) rest)
      rw [← takeWhile_append_of_head _ hnext, hcut, hdigits]
  refine findSome?_eq_some_of_forall ?_ hline ?_
  · intro line hmem port hport
    obtain ⟨-, hport⟩ := Option.ite_none_right_eq_some.mp hport
    obtain ⟨other, hother, rfl⟩ := Option.map_eq_some_iff.mp hport
    rw [honly other (showsPort_of_line hmem (showsPort_of_matchPort hother))]
  · have hmarker : occursIn marker
        (start ++ announcement ++ rest.takeWhile fun x => !decide (x = '\n')) = true :=
      decide_eq_true ((show marker <:+: announcement by decide).trans ⟨start, _, rfl⟩)
    rw [if_pos hmarker,
      matchPort_of_showsPort hshows fun other ho => honly other (showsPort_of_line hline ho)]
    rfl

/-! ## The stream -/

/-- The supervisor's error stream: the line with the port is logged once, and neither the
marker nor the address is anywhere else. -/
structure Announces (before digits after : Text) : Prop where
  markerOnce : Once marker (before ++ announcement ++ (digits ++ after)) before
  addressOnce : Once address (before ++ announcement ++ (digits ++ after)) (before ++ preface)
  allDigits : ∀ c ∈ digits, isDigit c = true
  /-- A port is positive and printed without leading zeros. -/
  leading : ∃ first rest, digits = first :: rest ∧ 49 ≤ first.toNat
  ends : ∀ c ∈ after.head?, isDigit c = false

section Chunks

variable {before digits after : Text} {xs ys : List Text} {c : Text}

/-- Behind the address in a chunk are the first digits of the port, as many as there are up
to the cut. -/
theorem Announces.showsPort_prefix (h : Announces before digits after)
    (htext : (xs ++ c :: ys).flatten = before ++ announcement ++ (digits ++ after))
    {shown : Text} (hshown : ShowsPort c shown) :
    ∃ u rest, c = u ++ address ++ rest ∧ xs.flatten ++ u = before ++ preface ∧
      rest ++ ys.flatten = digits ++ after ∧ rest.takeWhile isDigit = shown ∧ shown <+: digits := by
  obtain ⟨u, rest, rfl, rfl, -⟩ := hshown
  have honce := h.addressOnce
  rw [append_announcement] at htext honce
  obtain ⟨hu, hrest⟩ := honce.of_chunk htext
  refine ⟨u, rest, rfl, hu, hrest, rfl, ?_⟩
  have hprefix := takeWhile_prefix_append (p := isDigit) rest ys.flatten
  have hall : digits.takeWhile isDigit = digits := List.takeWhile_eq_self_iff.mpr h.allDigits
  rwa [hrest, takeWhile_append_of_head digits h.ends, hall] at hprefix

/-- A chunk shows one port at most. -/
theorem Announces.showsPort_unique (h : Announces before digits after)
    (htext : (xs ++ c :: ys).flatten = before ++ announcement ++ (digits ++ after))
    {a b : Text} (ha : ShowsPort c a) (hb : ShowsPort c b) : a = b := by
  obtain ⟨u, rest, hc, hu, -, rfl, -⟩ := h.showsPort_prefix htext ha
  obtain ⟨v, other, hc', hv, -, rfl, -⟩ := h.showsPort_prefix htext hb
  obtain rfl : u = v := List.append_cancel_left (hu.trans hv.symm)
  rw [hc] at hc'
  rw [List.append_cancel_left hc']

/-- **What a chunk resolves with.** -/
theorem Announces.portIn_iff (h : Announces before digits after)
    (htext : (xs ++ c :: ys).flatten = before ++ announcement ++ (digits ++ after)) {port : ℕ} :
    portIn c = some port ↔
      ∃ u rest shown, c = u ++ announcement ++ rest ∧ rest.takeWhile isDigit = shown ∧
        shown ≠ [] ∧ shown <+: digits ∧ port = parseInt shown := by
  constructor
  · intro hport
    obtain ⟨⟨u', v', hmarker⟩, shown, hshown, rfl⟩ := showsPort_of_portIn hport
    have hsome : shown ≠ [] := by
      obtain ⟨-, -, -, -, hsome⟩ := hshown
      exact hsome
    obtain ⟨u, rest, hc, hu, -, hrest, hprefix⟩ := h.showsPort_prefix htext hshown
    -- The marker of the chunk is that of the line.
    have hstart : xs.flatten ++ u' = before := by
      have honce := h.markerOnce
      refine honce (xs.flatten ++ u') (v' ++ ys.flatten) ?_
      rw [← htext, ← hmarker]
      simp
    have hpreface : u = u' ++ preface := by
      rw [← hstart, List.append_assoc] at hu
      exact List.append_cancel_left hu
    refine ⟨u', rest, shown, ?_, hrest, hsome, hprefix, rfl⟩
    rw [hc, hpreface, append_announcement]
  · rintro ⟨u, rest, shown, rfl, hrest, hsome, -, rfl⟩
    refine portIn_of_announcement hrest hsome fun other hother => ?_
    exact h.showsPort_unique htext hother
      ⟨u ++ preface, rest, append_announcement .., hrest, hsome⟩

end Chunks

/-! ## Numbers -/

theorem parseInt_append (a b : Text) :
    parseInt (a ++ b) = parseInt a * 10 ^ b.length + parseInt b := by
  have hfold : ∀ (b : Text) (n : ℕ), b.foldl (fun n c => 10 * n + (c.toNat - 48)) n =
      n * 10 ^ b.length + parseInt b := by
    intro b
    induction b with
    | nil => simp [parseInt]
    | cons c rest ih =>
        intro n
        rw [parseInt, List.foldl_cons, List.foldl_cons, ih, ih (10 * 0 + (c.toNat - 48)),
          List.length_cons]
        ring
  rw [parseInt, List.foldl_append, hfold]
  rfl

theorem parseInt_lt {digits : Text} (h : ∀ c ∈ digits, isDigit c = true) :
    parseInt digits < 10 ^ digits.length := by
  induction digits using List.reverseRecOn with
  | nil => exact Nat.one_pos
  | append_singleton start c ih =>
      have hstart := ih fun x hx => h x (List.mem_append_left _ hx)
      have hc : 48 ≤ c.toNat ∧ c.toNat ≤ 57 :=
        of_decide_eq_true (h c (List.mem_append_right _ (List.mem_singleton_self c)))
      have hlast : parseInt [c] = c.toNat - 48 := by simp [parseInt]
      rw [parseInt_append, hlast, List.length_append, List.length_singleton, pow_add]
      omega

/-- A cut in the digits divides the port by a power of ten. -/
theorem parseInt_prefix {shown rest : Text} (h : ∀ c ∈ rest, isDigit c = true) :
    parseInt shown = parseInt (shown ++ rest) / 10 ^ rest.length := by
  have hpow : 0 < 10 ^ rest.length := Nat.pow_pos (by decide)
  rw [parseInt_append, Nat.mul_comm, Nat.mul_add_div hpow, Nat.div_eq_of_lt (parseInt_lt h),
    Nat.add_zero]

/-- And makes it smaller. -/
theorem parseInt_lt_of_cut {first : Char} {shown rest : Text} (hfirst : 49 ≤ first.toNat)
    (hrest : rest ≠ []) :
    parseInt (first :: shown) < parseInt (first :: shown ++ rest) := by
  have hpos : 0 < parseInt (first :: shown) := by
    have hsplit := parseInt_append [first] shown
    have hone : parseInt [first] = first.toNat - 48 := by simp [parseInt]
    rw [List.singleton_append, hone] at hsplit
    rw [hsplit]
    have hdigit : 0 < first.toNat - 48 := by omega
    have hpow : 0 < 10 ^ shown.length := Nat.pow_pos (by decide)
    have := Nat.mul_pos hdigit hpow
    omega
  have hlen : 10 ^ 1 ≤ 10 ^ rest.length :=
    Nat.pow_le_pow_right (by decide) (List.length_pos_iff.mpr hrest)
  rw [parseInt_append]
  have := Nat.mul_le_mul_left (parseInt (first :: shown)) hlen
  omega

/-! ## The stream in chunks -/

variable {before digits after : Text} {chunks : List Text}

theorem ShowsPort.isInfix {text shown : Text} (h : ShowsPort text shown) : address <:+: text := by
  obtain ⟨u, rest, rfl, -⟩ := h
  exact ⟨u, rest, rfl⟩

/-- A search over chunks resolves with what one chunk resolves with. -/
theorem Announces.resolvedPort_iff_portIn (h : Announces before digits after)
    (htext : chunks.flatten = before ++ announcement ++ (digits ++ after)) {port : ℕ} :
    resolvedPort chunks = some port ↔ ∃ c ∈ chunks, portIn c = some port := by
  constructor
  · exact List.exists_of_findSome?_eq_some
  · rintro ⟨c, hc, hport⟩
    refine findSome?_eq_some_of_forall ?_ hc hport
    intro d hd other hother
    obtain ⟨-, _, hshown, -⟩ := showsPort_of_portIn hport
    obtain ⟨-, _, hshown', -⟩ := showsPort_of_portIn hother
    have honce := h.addressOnce
    rw [append_announcement] at htext honce
    obtain rfl := honce.chunk_unique (by decide) htext hd hc hshown'.isInfix hshown.isInfix
    exact Option.some.inj (hother.symm.trans hport)

/-- A chunk with the whole announcement and some of the digits. -/
theorem Announces.resolvedPort_of_shown (h : Announces before digits after)
    (htext : chunks.flatten = before ++ announcement ++ (digits ++ after)) {u v shown : Text}
    (hc : u ++ announcement ++ (shown ++ v) ∈ chunks) (hsome : shown ≠ [])
    (hshown : ∀ x ∈ shown, isDigit x = true) :
    ∃ more, shown ++ more <+: digits ∧ resolvedPort chunks = some (parseInt (shown ++ more)) := by
  obtain ⟨xs, ys, rfl⟩ := List.append_of_mem hc
  have htake : (shown ++ v).takeWhile isDigit = shown ++ v.takeWhile isDigit :=
    List.takeWhile_append_of_pos hshown
  have hne : shown ++ v.takeWhile isDigit ≠ [] := by simp [hsome]
  obtain ⟨-, -, -, -, -, -, hprefix⟩ := h.showsPort_prefix htext
    ⟨u ++ preface, shown ++ v, append_announcement .., htake, hne⟩
  refine ⟨v.takeWhile isDigit, hprefix, (h.resolvedPort_iff_portIn htext).mpr ⟨_, hc, ?_⟩⟩
  exact (h.portIn_iff htext).mpr ⟨u, shown ++ v, _, rfl, htake, hne, hprefix, rfl⟩

/-- **The port that is resolved.**  However the error stream is cut into chunks,
`spawnSupervisor` resolves with the port or with its leading digits; with the port exactly
when a chunk has the announcement and all digits; and not at all exactly when no chunk
has the announcement and a digit. -/
theorem resolvedPort_of_announces (h : Announces before digits after)
    (htext : chunks.flatten = before ++ announcement ++ (digits ++ after)) :
    (∀ port, resolvedPort chunks = some port → ∃ k, port = parseInt digits / 10 ^ k) ∧
      (resolvedPort chunks = some (parseInt digits) ↔
        ∃ c ∈ chunks, announcement ++ digits <:+: c) ∧
      (resolvedPort chunks = none ↔
        ∀ c ∈ chunks, ∀ first ∈ digits.head?, ¬ announcement ++ [first] <:+: c) := by
  obtain ⟨first, others, hdigits, hleading⟩ := h.leading
  -- What is resolved is a chunk's share of the digits.
  have hresolved {port : ℕ} (hport : resolvedPort chunks = some port) :
      ∃ u shown v more, u ++ announcement ++ (shown ++ v) ∈ chunks ∧ shown ≠ [] ∧
        digits = shown ++ more ∧ port = parseInt shown := by
    obtain ⟨c, hc, hchunk⟩ := (h.resolvedPort_iff_portIn htext).mp hport
    obtain ⟨xs, ys, rfl⟩ := List.append_of_mem hc
    obtain ⟨u, rest, shown, rfl, hrest, hsome, ⟨more, hmore⟩, rfl⟩ := (h.portIn_iff htext).mp hchunk
    refine ⟨u, shown, rest.dropWhile isDigit, more, ?_, hsome, hmore.symm, rfl⟩
    rw [← hrest, List.takeWhile_append_dropWhile]
    exact hc
  have hshort {shown more : Text} (hsplit : digits = shown ++ more) (hsome : shown ≠ [])
      (heq : parseInt shown = parseInt digits) : shown = digits := by
    obtain ⟨x, rest, rfl⟩ := List.exists_cons_of_ne_nil hsome
    obtain ⟨rfl, -⟩ := List.cons.inj (hdigits.symm.trans hsplit)
    by_contra hcut
    have hmore : more ≠ [] := by
      rintro rfl
      exact hcut (by rw [hsplit, List.append_nil])
    have hless : parseInt (_ :: rest) < parseInt (_ :: rest ++ more) :=
      parseInt_lt_of_cut hleading hmore
    rw [← hsplit] at hless
    omega
  refine ⟨?_, ⟨?_, ?_⟩, ⟨?_, ?_⟩⟩
  · intro port hport
    obtain ⟨u, shown, v, more, -, -, hsplit, rfl⟩ := hresolved hport
    refine ⟨more.length, ?_⟩
    rw [hsplit]
    exact parseInt_prefix fun c hc => h.allDigits c (hsplit ▸ List.mem_append_right _ hc)
  · intro hport
    obtain ⟨u, shown, v, more, hc, hsome, hsplit, heq⟩ := hresolved hport
    obtain rfl := hshort hsplit hsome heq.symm
    exact ⟨_, hc, u, v, by simp⟩
  · rintro ⟨_, hc, u, v, rfl⟩
    have hwhole : u ++ (announcement ++ digits) ++ v = u ++ announcement ++ (digits ++ v) := by simp
    rw [hwhole] at hc
    obtain ⟨more, hprefix, hport⟩ :=
      h.resolvedPort_of_shown htext hc (by simp [hdigits]) h.allDigits
    have hnone : more = [] := by
      have := hprefix.length_le
      rw [List.length_append] at this
      exact List.length_eq_zero_iff.mp (by omega)
    rw [hport, hnone, List.append_nil]
  · intro hnone c hc x hx
    rintro ⟨u, v, rfl⟩
    have hwhole : u ++ (announcement ++ [x]) ++ v = u ++ announcement ++ ([x] ++ v) := by simp
    rw [hwhole] at hc
    obtain ⟨more, -, hport⟩ := h.resolvedPort_of_shown htext hc (by simp)
      (by simpa using h.allDigits x (List.mem_of_mem_head? hx))
    cases hnone.symm.trans hport
  · intro hall
    by_contra hsome
    obtain ⟨port, hport⟩ := Option.ne_none_iff_exists'.mp hsome
    obtain ⟨u, shown, v, more, hc, hne, hsplit, -⟩ := hresolved hport
    obtain ⟨x, rest, rfl⟩ := List.exists_cons_of_ne_nil hne
    exact hall _ hc x (by rw [hsplit]; rfl) ⟨u, rest ++ v, by simp⟩

theorem announces_port :
    Announces "INFO ".toList "54321".toList "\nINFO ready\n".toList where
  markerOnce := by decide +kernel
  addressOnce := by decide +kernel
  allDigits := List.all_eq_true.mp (by decide)
  leading := ⟨'5', "4321".toList, rfl, by decide⟩
  ends := by
    intro c hc
    obtain rfl := Option.some.inj hc
    decide

/-- The stream is cut after the second digit: the SDK dials port 54. -/
theorem port_of_cut :
    resolvedPort ["INFO WebSocket Server listening on ws://127.0.0.1:54".toList,
      "321\nINFO ready\n".toList] = some 54 ∧
    ∃ k, 54 = parseInt "54321".toList / 10 ^ k := by
  have hport : resolvedPort ["INFO WebSocket Server listening on ws://127.0.0.1:54".toList,
      "321\nINFO ready\n".toList] = some 54 := by decide +kernel
  exact ⟨hport, (resolvedPort_of_announces announces_port (by decide +kernel)).1 54 hport⟩

end Sdk
end AvaListener
