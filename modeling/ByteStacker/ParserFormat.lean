import Mathlib.Data.List.Forall2
import ByteStacker.Parser

/-!
# The format of the arguments

`PointText` and `TrunkText` are the formats the parsers are written for: numbers
are plain digit strings in the range of their type, and every entry of a port
list is one.

The parsers accept more.  They ask whether `std::stoul` has read the whole piece
but not whether it has skipped blanks, taken a sign or found a number that the
cast then cuts off; and a port list may be empty or end with a comma, as the loop
stops at the end of the text before it looks for an entry.  What they accept is
in the format exactly if it has none of this.

In the other direction nothing is lost: what is printed is read back.
-/

/-! ## The formats -/

/-- `<id>=<address>:<port>`. -/
def PointText (s : Text) (p : PointArgs) : Prop :=
  ∃ sid sport, s = sid ++ '=' :: (p.address ++ ':' :: sport) ∧ Decimal sid p.id.toNat ∧
    p.address ≠ [] ∧ ':' ∉ p.address ∧ Decimal sport p.port.toNat

/-- `<ip>:<port>(,<port>)*`, with the endpoints in the order written. -/
def TrunkText (makeAddressV4 : Text → Option Bytes) (s : Text) (points : List Endpoint) : Prop :=
  ∃ sip ip sports, s = sip ++ ':' :: [','].intercalate sports ∧ ':' ∉ sip ∧
    makeAddressV4 sip = some ip ∧ sports ≠ [] ∧
    List.Forall₂ (fun sport point => point.address = ip ∧ Decimal sport point.port.toNat)
      sports points

/-- A separator that does not occur in front cuts a text in one way. -/
theorem cut_unique {front front' rest rest' : Text} {c : Char}
    (heq : front ++ c :: rest = front' ++ c :: rest') (h : c ∉ front) (h' : c ∉ front') :
    front = front' ∧ rest = rest' := by
  have hlength : front.length = front'.length := by
    have hfind : find (front ++ c :: rest) c = find (front' ++ c :: rest') c := by rw [heq]
    rw [find_append h, find_append h'] at hfind
    exact Option.some.inj hfind
  obtain ⟨hfront, hrest⟩ := List.append_inj heq hlength
  exact ⟨hfront, (List.cons.inj hrest).2⟩

/-- A decimal text holds digits only. -/
theorem Decimal.not_mem {t : Text} {value : Nat} {c : Char} (h : Decimal t value)
    (hc : c.isDigit = false) : c ∉ t := by
  intro hmem
  simp [h.digit c hmem] at hc

/-! ## The casts -/

/-- Without a sign the value is the amount, in 64 bits. -/
theorem Numeral.value_unsigned {n : Numeral} (h : n.sign = .none) :
    n.value = UInt64.ofNat n.amount := by
  simp [value, h]

/-- **A numeral and its cast agree exactly if it is plain**, for a cast to the numbers
below `size`. -/
theorem Numeral.decimal_cast_iff {n : Numeral} {size : Nat} {narrow : UInt64 → Nat}
    (hrange : ∀ value, narrow value < size)
    (hnarrow : ∀ amount, amount < size → narrow (UInt64.ofNat amount) = amount) :
    Decimal n.text (narrow n.value) ↔ n.Plain size := by
  rw [Numeral.decimal_iff]
  constructor
  · intro h
    obtain ⟨hblanks, hsign, hamount⟩ := h
    exact ⟨hblanks, hsign, hamount ▸ hrange n.value⟩
  · intro h
    obtain ⟨hblanks, hsign, hlt⟩ := h
    rw [Numeral.value_unsigned hsign, hnarrow n.amount hlt]
    exact ⟨hblanks, hsign, rfl⟩

/-- An id is what its text says unless the text has blanks, a sign or too large an amount. -/
theorem Numeral.decimal_toUInt32_iff {n : Numeral} :
    Decimal n.text n.value.toUInt32.toNat ↔ n.Plain UInt32.size := by
  refine Numeral.decimal_cast_iff (fun value => value.toUInt32.toNat_lt_size) ?_
  intro amount hlt
  rw [UInt64.toUInt32_ofNat', UInt32.toNat_ofNat_of_lt' hlt]

/-- So is a port. -/
theorem Numeral.decimal_toUInt16_iff {n : Numeral} :
    Decimal n.text n.value.toUInt16.toNat ↔ n.Plain UInt16.size := by
  refine Numeral.decimal_cast_iff (fun value => value.toUInt16.toNat_lt_size) ?_
  intro amount hlt
  rw [UInt64.toUInt16_ofNat', UInt16.toNat_ofNat_of_lt' hlt]

/-! ## Soundness -/

/-- A text that is read as a point is one exactly if both numerals are plain. -/
theorem ReadsPoint.pointText_iff {s address : Text} {id port : Numeral}
    (h : ReadsPoint s id address port) :
    PointText s ⟨id.value.toUInt32, address, port.value.toUInt16⟩ ↔
      id.Plain UInt32.size ∧ port.Plain UInt16.size := by
  rw [← Numeral.decimal_toUInt32_iff, ← Numeral.decimal_toUInt16_iff]
  constructor
  · intro htext
    obtain ⟨sid, sport, heq, hid, _, _, hport⟩ := htext
    obtain ⟨hsid, hrest⟩ := cut_unique (h.text.symm.trans heq) id.noEquals
      (hid.not_mem (by decide))
    obtain ⟨_, hsport⟩ := cut_unique hrest h.noColon h.noColon
    rw [hsid, hsport]
    exact ⟨hid, hport⟩
  · intro hplain
    exact ⟨id.text, port.text, h.text, hplain.1, h.nonempty, h.noColon, hplain.2⟩

/-- **`ParsePoint` is sound exactly on plain numbers.**  Whatever it accepts of a text
is in the format, with exactly the numbers and the address written there, if and
only if, where the text is a number, `=`, an address, `:` and a number as
`std::stoul` reads numbers, both are plain digits in the range of their type. -/
theorem parsePoint_sound_iff {s : Text} :
    (∀ out out', parsePoint s out = (true, out') → PointText s out') ↔
      ∀ id address port, ReadsPoint s id address port →
        id.Plain UInt32.size ∧ port.Plain UInt16.size := by
  constructor
  · intro hsound id address port hreads
    exact hreads.pointText_iff.mp (hsound ⟨0, [], 0⟩ _ (parsePoint_reads hreads _))
  · intro hplain out out' hparse
    obtain ⟨id, address, port, hreads, rfl⟩ := parsePoint_true_iff.mp hparse
    exact hreads.pointText_iff.mpr (hplain id address port hreads)

/-- Point 2³² becomes point 0, and port 65616 becomes port 80. -/
theorem parsePoint_wraps :
    parsePoint "4294967296=a:65616".toList ⟨7, [], 7⟩ = (true, ⟨0, ['a'], 80⟩) ∧
      ¬ PointText "4294967296=a:65616".toList ⟨0, ['a'], 80⟩ := by
  refine ⟨by decide +kernel, ?_⟩
  intro h
  obtain ⟨sid, sport, heq, hid, _⟩ := h
  have htext : "4294967296=a:65616".toList = "4294967296".toList ++ '=' :: "a:65616".toList := by
    decide +kernel
  obtain ⟨rfl, _⟩ := cut_unique (htext.symm.trans heq) (by decide) (hid.not_mem (by decide))
  have hvalue := hid.denotes
  revert hvalue
  decide +kernel

/-- A text that is read as a trunk point is one exactly if no entry is empty and all
ports are plain. -/
theorem ReadsTrunk.trunkText_iff {makeAddressV4 : Text → Option Bytes} {s sip : Text} {ip : Bytes}
    {ports : List Numeral} {trailing : Bool}
    (h : ReadsTrunk makeAddressV4 s sip ip ports trailing) :
    TrunkText makeAddressV4 s (ports.map (Numeral.endpoint ip)) ↔
      trailing = false ∧ ∀ port ∈ ports, port.Plain UInt16.size := by
  have hports : List.Forall₂ (fun sport (point : Endpoint) =>
      point.address = ip ∧ Decimal sport point.port.toNat) (ports.map Numeral.text)
      (ports.map (Numeral.endpoint ip)) ↔ ∀ port ∈ ports, port.Plain UInt16.size := by
    rw [List.forall₂_map_left_iff, List.forall₂_map_right_iff, List.forall₂_same]
    refine forall₂_congr fun port _ => ?_
    rw [← Numeral.decimal_toUInt16_iff]
    exact and_iff_right rfl
  constructor
  · intro htext
    obtain ⟨sip', ip', sports, heq, hcolon, hip, hne, hall⟩ := htext
    obtain ⟨rfl, hlist⟩ := cut_unique (h.text.symm.trans heq) h.noColon hcolon
    obtain rfl : ip = ip' := Option.some.inj (h.address.symm.trans hip)
    have hdecimal : ∀ sport ∈ sports, ∃ value, Decimal sport value := by
      intro sport hsport
      obtain ⟨k, hk, rfl⟩ := List.getElem_of_mem hsport
      have hpoint : k < (ports.map (Numeral.endpoint ip)).length := hall.length_eq ▸ hk
      exact ⟨_, (hall.get hk hpoint).2⟩
    have hentries : entries ports trailing = sports := by
      have hcut : ([','].intercalate sports).splitOn ',' = sports := by
        refine List.splitOn_intercalate ',' (fun sport hsport => ?_) hne
        obtain ⟨value, hvalue⟩ := hdecimal sport hsport
        exact hvalue.not_mem (by decide)
      rw [← hcut, ← hlist, splitOn_entries h.entry]
    cases trailing with
    | true =>
        obtain ⟨value, hvalue⟩ := hdecimal [] (by simp [← hentries, entries])
        exact absurd rfl hvalue.nonempty
    | false =>
        have hsports : ports.map Numeral.text = sports := by simpa [entries] using hentries
        rw [← hsports] at hall
        exact ⟨rfl, hports.mp hall⟩
  · intro hplain
    obtain ⟨rfl, hplain⟩ := hplain
    have hne : ports ≠ [] := h.entry.resolve_right (by simp)
    refine ⟨sip, ip, ports.map Numeral.text, ?_, h.noColon, h.address, by simpa using hne,
      hports.mpr hplain⟩
    rw [h.text]
    simp [entries]

/-- **`ParseTrunkPoint` is sound exactly on lists of plain ports.**  Whatever it
accepts of a text is in the format, with the endpoints in the order written, if and
only if, where the text is an address, `:` and numbers as `std::stoul` reads numbers
with commas between them, no comma or colon stands at the end and all numbers are
plain digits in the range of a port. -/
theorem parseTrunkPoint_sound_iff {makeAddressV4 : Text → Option Bytes} {s : Text} :
    (∀ points points', parseTrunkPoint makeAddressV4 s points = some (true, points') →
      TrunkText makeAddressV4 s points') ↔
      ∀ sip ip ports trailing, ReadsTrunk makeAddressV4 s sip ip ports trailing →
        trailing = false ∧ ∀ port ∈ ports, port.Plain UInt16.size := by
  constructor
  · intro hsound sip ip ports trailing hreads
    exact hreads.trunkText_iff.mp (hsound [] _ (parseTrunkPoint_reads hreads []))
  · intro hplain points points' hparse
    obtain ⟨sip, ip, ports, trailing, hreads, rfl⟩ := parseTrunkPoint_true_iff.mp hparse
    exact hreads.trunkText_iff.mpr (hplain sip ip ports trailing hreads)

/-- `make_address_v4`, as far as one address goes. -/
def loopback (s : Text) : Option Bytes :=
  if s = "127.0.0.1".toList then some [127, 0, 0, 1] else none

/-- A port list may be empty, and there is then no trunk point at all. -/
theorem parseTrunkPoint_empty :
    parseTrunkPoint loopback "127.0.0.1:".toList [] = some (true, []) ∧
      ¬ TrunkText loopback "127.0.0.1:".toList [] := by
  refine ⟨by decide +kernel, ?_⟩
  intro h
  obtain ⟨sip, ip, sports, _, _, _, hne, hall⟩ := h
  cases hall
  exact hne rfl

/-! ## Printing and parsing -/

/-- An IPv4 address, its bytes and its dotted quad. -/
structure IPv4 where
  a : UInt8
  b : UInt8
  c : UInt8
  d : UInt8
  deriving DecidableEq

def IPv4.bytes (ip : IPv4) : Bytes := [ip.a, ip.b, ip.c, ip.d]

def IPv4.text (ip : IPv4) : Text :=
  ['.'].intercalate (ip.bytes.map fun byte => Nat.toDigits 10 byte.toNat)

def printPoint (p : PointArgs) : Text :=
  Nat.toDigits 10 p.id.toNat ++ '=' :: (p.address ++ ':' :: Nat.toDigits 10 p.port.toNat)

def printTrunkPoint (ip : IPv4) (ports : List UInt16) : Text :=
  ip.text ++ ':' :: [','].intercalate (ports.map fun port => Nat.toDigits 10 port.toNat)

/-- The digits of a point id and of a port. -/
def idNumeral (id : PointID) : Numeral :=
  .ofNat id.toNat (Nat.lt_trans id.toNat_lt_size (by decide))

def portNumeral (port : UInt16) : Numeral :=
  .ofNat port.toNat (Nat.lt_trans port.toNat_lt_size (by decide))

/-- The numeral of an id has its value. -/
theorem value_idNumeral (id : PointID) : (idNumeral id).value.toUInt32 = id := by
  rw [idNumeral, Numeral.value_ofNat, UInt64.toUInt32_ofNat', UInt32.ofNat_toNat]

/-- So has the numeral of a port. -/
theorem value_portNumeral (port : UInt16) : (portNumeral port).value.toUInt16 = port := by
  rw [portNumeral, Numeral.value_ofNat, UInt64.toUInt16_ofNat', UInt16.ofNat_toNat]

/-- A dotted quad has digits and dots only. -/
theorem IPv4.text_plain (ip : IPv4) : ip.text ≠ [] ∧ ':' ∉ ip.text := by
  have hdigits : ∀ byte : UInt8, ':' ∉ Nat.toDigits 10 byte.toNat := by
    intro byte hmem
    have hdigit := Nat.isDigit_of_mem_toDigits (by decide) (by decide) hmem
    cases hdigit
  refine ⟨?_, ?_⟩
  · simp [IPv4.text, IPv4.bytes, List.intercalate_cons_cons, Nat.toDigits_ne_nil]
  · simp [IPv4.text, IPv4.bytes, List.intercalate_cons_cons, hdigits]

/-- **Parsing undoes printing.**  A printed point is read back exactly, whatever the
arguments held before, and so is a printed trunk point with any number of ports. -/
theorem parsing_undoes_printing (makeAddressV4 : Text → Option Bytes) :
    (∀ (p out : PointArgs), p.address ≠ [] → ':' ∉ p.address →
      parsePoint (printPoint p) out = (true, p)) ∧
    ∀ (ip : IPv4) (ports : List UInt16) (points : List Endpoint),
      makeAddressV4 ip.text = some ip.bytes → ports ≠ [] →
      parseTrunkPoint makeAddressV4 (printTrunkPoint ip ports) points =
        some (true, ports.map fun port => { address := ip.bytes, port := port }) := by
  refine ⟨?_, ?_⟩
  · intro p out hne hcolon
    have hreads : ReadsPoint (printPoint p) (idNumeral p.id) p.address (portNumeral p.port) :=
      ⟨rfl, hne, hcolon⟩
    rw [parsePoint_reads hreads, value_idNumeral, value_portNumeral]
  · intro ip ports points haddress hne
    obtain ⟨hnonempty, hcolon⟩ := ip.text_plain
    have hreads : ReadsTrunk makeAddressV4 (printTrunkPoint ip ports) ip.text ip.bytes
        (ports.map portNumeral) false := by
      refine ⟨?_, hnonempty, hcolon, haddress, Or.inl (by simpa using hne)⟩
      simp [printTrunkPoint, entries, portNumeral, Function.comp_def]
    have hendpoint : ∀ port, (portNumeral port).endpoint ip.bytes =
        { address := ip.bytes, port := port } := by
      intro port
      rw [Numeral.endpoint, value_portNumeral]
    rw [parseTrunkPoint_reads hreads, List.map_map]
    exact congrArg (fun points => some (true, points)) (List.map_congr_left fun port _ =>
      hendpoint port)

/-- One point and two trunk ports of the loopback address. -/
theorem parsing_undoes_printing_loopback :
    parsePoint "3=127.0.0.1:123".toList ⟨9, ['x'], 9⟩ =
        (true, ⟨3, "127.0.0.1".toList, 123⟩) ∧
      parseTrunkPoint loopback "127.0.0.1:123,456".toList [⟨[], 9⟩] =
        some (true, [⟨[127, 0, 0, 1], 123⟩, ⟨[127, 0, 0, 1], 456⟩]) := by
  have hpoint : "3=127.0.0.1:123".toList = printPoint ⟨3, "127.0.0.1".toList, 123⟩ := by
    decide +kernel
  have htrunk : "127.0.0.1:123,456".toList = printTrunkPoint ⟨127, 0, 0, 1⟩ [123, 456] := by
    decide +kernel
  have h := parsing_undoes_printing loopback
  rw [hpoint, htrunk]
  exact ⟨h.1 _ _ (by decide +kernel) (by decide +kernel),
    h.2 _ _ _ (by decide +kernel) (by decide)⟩
