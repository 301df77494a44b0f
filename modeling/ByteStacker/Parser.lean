import ByteStacker.Data
import ByteStacker.Numeral

/-!
# The arguments of the command line (`common/parser.cpp`)

A point is written `3=127.0.0.1:123`, a trunk point `127.0.0.1:123,456`.  Both
parsers cut the text at the separators and leave the numbers to `std::stoul`;
they compare the count of characters it has read with the length of the piece
and cast the number to the type they need.

`ParsePoint` writes into its arguments as it goes, also when it fails later.
`parsePoint_true_iff` and `parseTrunkPoint_true_iff` say which texts are accepted
and what is read from them.
-/

/-- `std::string::find`. -/
def find (s : Text) (c : Char) : Option Nat := s.findIdx? fun x => x == c

/-- The output arguments of `ParsePoint`. -/
structure PointArgs where
  id : PointID
  address : Text
  port : UInt16
  deriving DecidableEq

def parsePoint (arg : Text) (out : PointArgs) : Bool × PointArgs :=
  match find arg '=' with
  | none => (false, out)
  | some p =>
    if p = 0 then (false, out)
    else
      match stoul (arg.take p) with
      | none => (false, out)
      | some (id, s) =>
        let out := { out with id := id.toUInt32 }
        if s ≠ p then (false, out)
        else
          let adr := arg.drop (p + 1)
          match find adr ':' with
          | none => (false, out)
          | some p1 =>
            if p1 = 0 then (false, out)
            else
              let out := { out with address := adr.take p1 }
              let sport := adr.drop (p1 + 1)
              match stoul sport with
              | none => (false, out)
              | some (port, s) =>
                (decide (s = sport.length), { out with port := port.toUInt16 })

/-- The loop of `ParseTrunkPoint` over the ports that are left, with a bound on its
turns. -/
def portLoop (ip : Bytes) : Nat → Text → List Endpoint → Option (Bool × List Endpoint)
  | 0, _, _ => none
  | fuel + 1, sports, points =>
    if sports = [] then some (true, points)
    else
      let (chunk, rest) := match find sports ',' with
        | none => (sports, [])
        | some p2 => (sports.take p2, sports.drop (p2 + 1))
      if chunk = [] then some (false, points)
      else
        match stoul chunk with
        | none => some (false, points)
        | some (port, s) =>
          if s ≠ chunk.length then some (false, points)
          else portLoop ip fuel rest (points ++ [{ address := ip, port := port.toUInt16 }])

/-- `ParseTrunkPoint`, with `make_address_v4` as a parameter.  The vector is cleared
first; each turn of the loop takes a character or ends it. -/
def parseTrunkPoint (makeAddressV4 : Text → Option Bytes) (arg : Text)
    (_points : List Endpoint) : Option (Bool × List Endpoint) :=
  match find arg ':' with
  | none => some (false, [])
  | some p1 =>
    if p1 = 0 then some (false, [])
    else
      let sports := arg.drop (p1 + 1)
      match makeAddressV4 (arg.take p1) with
      | none => some (false, [])
      | some ip => portLoop ip (sports.length + 1) sports []

/-! ## Cutting at a separator -/

/-- The search stops at the first separator. -/
theorem find_append {front rest : Text} {c : Char} (h : c ∉ front) :
    find (front ++ c :: rest) c = some front.length := by
  have hnone : (front.findIdx? fun x => x == c) = none := by
    rw [List.findIdx?_eq_none_iff]
    intro x hx
    exact beq_eq_false_iff_ne.mpr fun heq => h (heq ▸ hx)
  simp [find, List.findIdx?_append, hnone, List.findIdx?_cons]

/-- It fails where there is none. -/
theorem find_none {s : Text} {c : Char} (h : c ∉ s) : find s c = none := by
  rw [find, List.findIdx?_eq_none_iff]
  intro x hx
  exact beq_eq_false_iff_ne.mpr fun heq => h (heq ▸ hx)

/-- What follows the separator is the rest of the text. -/
theorem drop_separator (front rest : Text) (c : Char) :
    (front ++ c :: rest).drop (front.length + 1) = rest := by
  simp

/-- **What `find` finds** is the end of a front part without the character. -/
theorem find_cases (s : Text) (c : Char) :
    (find s c = none ∧ c ∉ s) ∨
      ∃ front rest, s = front ++ c :: rest ∧ c ∉ front ∧ find s c = some front.length := by
  by_cases hmem : c ∈ s
  · obtain ⟨front, rest, rfl, hfront⟩ := List.eq_append_cons_of_mem hmem
    exact Or.inr ⟨front, rest, rfl, hfront, find_append hfront⟩
  · exact Or.inl ⟨find_none hmem, hmem⟩

/-! ## What is accepted -/

/-- A numeral holds spaces, signs and digits only: -/
theorem Numeral.not_mem_text {c : Char} (hspace : isspace c = false) (hplus : c ≠ '+')
    (hminus : c ≠ '-') (hdigit : c.isDigit = false) (n : Numeral) : c ∉ n.text := by
  intro hmem
  rcases n.mem_text hmem with h | h | h | h
  · simp [hspace] at h
  · exact hplus h
  · exact hminus h
  · simp [hdigit] at h

/-- In particular no separator. -/
theorem Numeral.noEquals (n : Numeral) : '=' ∉ n.text :=
  n.not_mem_text (by decide) (by decide) (by decide) (by decide)

theorem Numeral.noComma (n : Numeral) : ',' ∉ n.text :=
  n.not_mem_text (by decide) (by decide) (by decide) (by decide)

/-- The text is read as two numerals with an address between them. -/
structure ReadsPoint (s : Text) (id : Numeral) (address : Text) (port : Numeral) : Prop where
  text : s = id.text ++ '=' :: (address ++ ':' :: port.text)
  nonempty : address ≠ []
  noColon : ':' ∉ address

/-- **A text of the form that the parser reads is accepted with its values.** -/
theorem parsePoint_reads {s address : Text} {id port : Numeral} (h : ReadsPoint s id address port)
    (out : PointArgs) :
    parsePoint s out = (true, ⟨id.value.toUInt32, address, port.value.toUInt16⟩) := by
  have hid : find s '=' = some id.text.length := by
    rw [h.text]
    exact find_append id.noEquals
  have htake : s.take id.text.length = id.text := by simp [h.text]
  have hdrop : s.drop (id.text.length + 1) = address ++ ':' :: port.text := by simp [h.text]
  have hcolon : find (address ++ ':' :: port.text) ':' = some address.length :=
    find_append h.noColon
  have hport := drop_separator address port.text ':'
  have haddress : (address ++ ':' :: port.text).take address.length = address := by simp
  have hne : id.text.length ≠ 0 := fun hnil =>
    id.text_ne_nil (List.eq_nil_of_length_eq_zero hnil)
  have hne' : address.length ≠ 0 := fun hnil => h.nonempty (List.eq_nil_of_length_eq_zero hnil)
  simp [parsePoint, hid, htake, hdrop, hcolon, hport, haddress, stoul_text, hne, hne']

/-- **What is accepted is of that form.** -/
theorem reads_of_parsePoint {s : Text} {out out' : PointArgs}
    (h : parsePoint s out = (true, out')) :
    ∃ id address port, ReadsPoint s id address port ∧
      out' = ⟨id.value.toUInt32, address, port.value.toUInt16⟩ := by
  unfold parsePoint at h
  rcases find_cases s '=' with ⟨hnone, _⟩ | ⟨sid, adr, rfl, _, hfind⟩
  · simp [hnone] at h
  · simp only [hfind] at h
    split at h
    · cases h
    · rw [List.take_left] at h
      split at h
      · cases h
      · rename_i value count hstoul
        split at h
        · cases h
        · rename_i hwhole
          obtain ⟨id, rfl, rfl⟩ := numeral_of_stoul (not_not.mp hwhole ▸ hstoul)
          rw [drop_separator] at h
          rcases find_cases adr ':' with ⟨hnone, _⟩ | ⟨address, sport, rfl, hcolon, hfind'⟩
          · simp [hnone] at h
          · simp only [hfind'] at h
            split at h
            · cases h
            · rename_i hne
              rw [drop_separator, List.take_left] at h
              split at h
              · cases h
              · rename_i value' count' hstoul'
                obtain ⟨hall, rfl⟩ := Prod.mk.inj h
                obtain ⟨port, rfl, rfl⟩ := numeral_of_stoul (of_decide_eq_true hall ▸ hstoul')
                exact ⟨id, address, port, ⟨rfl, fun hnil => hne (by simp [hnil]), hcolon⟩, rfl⟩

/-- **What `ParsePoint` accepts**, and what it returns. -/
theorem parsePoint_true_iff {s : Text} {out out' : PointArgs} :
    parsePoint s out = (true, out') ↔ ∃ id address port, ReadsPoint s id address port ∧
      out' = ⟨id.value.toUInt32, address, port.value.toUInt16⟩ := by
  constructor
  · exact reads_of_parsePoint
  · intro h
    obtain ⟨id, address, port, hreads, rfl⟩ := h
    exact parsePoint_reads hreads out

/-! ## The list of ports -/

/-- The entries of a port list: numerals, and perhaps an empty one at the end. -/
def entries (ports : List Numeral) (trailing : Bool) : List Text :=
  ports.map Numeral.text ++ if trailing then [[]] else []

def Numeral.endpoint (ip : Bytes) (port : Numeral) : Endpoint where
  address := ip
  port := port.value.toUInt16

/-- The entries of a list are cut apart at its commas. -/
theorem splitOn_entries {ports : List Numeral} {trailing : Bool}
    (h : ports ≠ [] ∨ trailing = true) :
    ([','].intercalate (entries ports trailing)).splitOn ',' = entries ports trailing := by
  refine List.splitOn_intercalate ',' ?_ ?_
  · intro entry hentry
    rcases List.mem_append.mp hentry with hport | hlast
    · obtain ⟨port, _, rfl⟩ := List.mem_map.mp hport
      exact port.noComma
    · cases trailing <;> simp_all
  · rcases h with h | h
    · simp [entries, h]
    · simp [entries, h]

/-- At the end of the list the loop stops. -/
theorem portLoop_nil {ip : Bytes} {fuel : Nat} {points : List Endpoint} (h : 0 < fuel) :
    portLoop ip fuel [] points = some (true, points) := by
  cases fuel with
  | zero => omega
  | succ fuel => simp [portLoop]

/-- One turn on a numeral that another entry follows. -/
theorem portLoop_numeral {ip : Bytes} (port : Numeral) (rest : Text) (fuel : Nat)
    (points : List Endpoint) :
    portLoop ip (fuel + 1) (port.text ++ ',' :: rest) points =
      portLoop ip fuel rest (points ++ [port.endpoint ip]) := by
  have hfind : find (port.text ++ ',' :: rest) ',' = some port.text.length :=
    find_append port.noComma
  simp [portLoop, hfind, port.text_ne_nil, stoul_text, Numeral.endpoint]

/-- One turn on the last numeral. -/
theorem portLoop_last {ip : Bytes} (port : Numeral) (fuel : Nat) (points : List Endpoint) :
    portLoop ip (fuel + 1) port.text points =
      portLoop ip fuel [] (points ++ [port.endpoint ip]) := by
  have hfind : find port.text ',' = none := find_none port.noComma
  simp [portLoop, hfind, port.text_ne_nil, stoul_text, Numeral.endpoint]

/-- **Numerals are read in their order**, whether or not a comma follows the last. -/
theorem portLoop_reads {ip : Bytes} {ports : List Numeral} {trailing : Bool} {sports : Text}
    {fuel : Nat} (points : List Endpoint) (hsplit : sports.splitOn ',' = entries ports trailing)
    (hfuel : sports.length < fuel) :
    portLoop ip fuel sports points =
      some (true, points ++ ports.map (Numeral.endpoint ip)) := by
  have hjoin : [','].intercalate (sports.splitOn ',') = sports := List.intercalate_splitOn ','
  induction ports generalizing sports fuel points with
  | nil =>
      have hnil : sports = [] := by
        rw [← hjoin, hsplit]
        cases trailing <;> rfl
      rw [hnil, portLoop_nil (by omega)]
      simp
  | cons port rest ih =>
      obtain ⟨fuel, rfl⟩ : ∃ n, fuel = n + 1 := ⟨fuel - 1, by omega⟩
      rcases find_cases sports ',' with ⟨_, hnone⟩ | ⟨front, back, rfl, hfront, _⟩
      · rw [List.splitOn_eq_singleton hnone] at hsplit
        obtain ⟨rfl, hlast⟩ := List.cons.inj hsplit
        obtain rfl : rest = [] := by
          cases rest with
          | nil => rfl
          | cons next rest => simp at hlast
        have hpos := List.length_pos_iff.mpr port.text_ne_nil
        rw [portLoop_last, portLoop_nil (by omega)]
        rfl
      · rw [List.splitOn_append_cons_self_of_not_mem hfront] at hsplit
        obtain ⟨rfl, hback⟩ := List.cons.inj hsplit
        rw [List.length_append, List.length_cons] at hfuel
        rw [portLoop_numeral, ih (points ++ [port.endpoint ip]) hback (by omega)
          (List.intercalate_splitOn ',')]
        simp

/-- A turn that does not end the loop has read a numeral. -/
theorem numeral_of_turn {chunk : Text} {points points' : List Endpoint}
    {next : UInt64 → Option (Bool × List Endpoint)}
    (h : (if chunk = [] then some (false, points)
      else
        match stoul chunk with
        | none => some (false, points)
        | some (port, s) =>
          if s ≠ chunk.length then some (false, points) else next port) = some (true, points')) :
    ∃ port : Numeral, port.text = chunk ∧ next port.value = some (true, points') := by
  split at h
  · cases h
  · split at h
    · cases h
    · rename_i value count hstoul
      split at h
      · cases h
      · rename_i hwhole
        obtain ⟨port, htext, rfl⟩ := numeral_of_stoul (not_not.mp hwhole ▸ hstoul)
        exact ⟨port, htext, h⟩

/-- **Nothing else is accepted.** -/
theorem reads_of_portLoop {ip : Bytes} {sports : Text} {fuel : Nat} {points points' : List Endpoint}
    (h : portLoop ip fuel sports points = some (true, points')) :
    ∃ ports trailing, sports.splitOn ',' = entries ports trailing ∧
      points' = points ++ ports.map (Numeral.endpoint ip) := by
  induction fuel generalizing sports points with
  | zero => cases h
  | succ fuel ih =>
      unfold portLoop at h
      split at h
      · rename_i hnil
        cases h
        exact ⟨[], true, by simp [hnil, entries], by simp⟩
      · rcases find_cases sports ',' with ⟨hfind, hnone⟩ | ⟨front, back, rfl, hfront, hfind⟩
        · simp only [hfind] at h
          obtain ⟨port, rfl, hnext⟩ := numeral_of_turn h
          refine ⟨[port], false, by simp [List.splitOn_eq_singleton hnone, entries], ?_⟩
          cases fuel with
          | zero => cases hnext
          | succ fuel =>
              rw [portLoop_nil (by omega)] at hnext
              cases hnext
              rfl
        · simp only [hfind, List.take_left, drop_separator] at h
          obtain ⟨port, rfl, hnext⟩ := numeral_of_turn h
          obtain ⟨ports, trailing, hback, rfl⟩ := ih hnext
          refine ⟨port :: ports, trailing, ?_, ?_⟩
          · rw [List.splitOn_append_cons_self_of_not_mem hfront, hback]
            rfl
          · simp [Numeral.endpoint]

/-- **The loop comes to its end**: each turn takes a character. -/
theorem portLoop_ne_none {ip : Bytes} {sports : Text} {fuel : Nat} {points : List Endpoint}
    (hfuel : sports.length < fuel) : portLoop ip fuel sports points ≠ none := by
  induction fuel generalizing sports points with
  | zero => omega
  | succ fuel ih =>
      unfold portLoop
      split
      · simp
      · rename_i hne
        have hpos := List.length_pos_iff.mpr hne
        rcases find_cases sports ',' with ⟨hfind, _⟩ | ⟨front, back, rfl, _, hfind⟩
        · simp only [hfind, if_neg hne]
          split
          · simp
          · split_ifs
            · simp
            · exact ih (by rw [List.length_nil]; omega)
        · simp only [hfind, List.take_left, drop_separator]
          split_ifs
          · simp
          · split
            · simp
            · split_ifs
              · simp
              · refine ih ?_
                rw [List.length_append, List.length_cons] at hfuel
                omega

/-- The text is read as an address and a list of ports. -/
structure ReadsTrunk (makeAddressV4 : Text → Option Bytes) (s sip : Text) (ip : Bytes)
    (ports : List Numeral) (trailing : Bool) : Prop where
  text : s = sip ++ ':' :: [','].intercalate (entries ports trailing)
  nonempty : sip ≠ []
  noColon : ':' ∉ sip
  address : makeAddressV4 sip = some ip
  entry : ports ≠ [] ∨ trailing = true

variable {makeAddressV4 : Text → Option Bytes} {s : Text} {points points' : List Endpoint}

/-- A list of ports that the trunk parser reads is accepted with its values. -/
theorem parseTrunkPoint_reads {sip : Text} {ip : Bytes} {ports : List Numeral} {trailing : Bool}
    (h : ReadsTrunk makeAddressV4 s sip ip ports trailing) (points : List Endpoint) :
    parseTrunkPoint makeAddressV4 s points = some (true, ports.map (Numeral.endpoint ip)) := by
  have hfind : find s ':' = some sip.length := by
    rw [h.text]
    exact find_append h.noColon
  have htake : s.take sip.length = sip := by simp [h.text]
  have hdrop : s.drop (sip.length + 1) = [','].intercalate (entries ports trailing) := by
    simp [h.text]
  have hne : sip.length ≠ 0 := fun hnil => h.nonempty (List.eq_nil_of_length_eq_zero hnil)
  simp only [parseTrunkPoint, hfind, htake, hdrop, h.address, if_neg hne]
  rw [portLoop_reads [] (splitOn_entries h.entry) (Nat.lt_succ_self _), List.nil_append]

/-- What the trunk parser accepts is such a list. -/
theorem reads_of_parseTrunkPoint
    (h : parseTrunkPoint makeAddressV4 s points = some (true, points')) :
    ∃ sip ip ports trailing, ReadsTrunk makeAddressV4 s sip ip ports trailing ∧
      points' = ports.map (Numeral.endpoint ip) := by
  unfold parseTrunkPoint at h
  rcases find_cases s ':' with ⟨hnone, _⟩ | ⟨sip, sports, rfl, hcolon, hfind⟩
  · simp [hnone] at h
  · simp only [hfind, List.take_left, drop_separator] at h
    split at h
    · cases h
    · rename_i hne
      split at h
      · cases h
      · rename_i ip hip
        obtain ⟨ports, trailing, hsplit, rfl⟩ := reads_of_portLoop h
        have hjoin : [','].intercalate (sports.splitOn ',') = sports :=
          List.intercalate_splitOn ','
        refine ⟨sip, ip, ports, trailing, ⟨?_, ?_, hcolon, hip, ?_⟩, by simp⟩
        · rw [← hsplit, hjoin]
        · exact fun hnil => hne (by simp [hnil])
        · cases trailing with
          | true => exact Or.inr rfl
          | false =>
              refine Or.inl fun hnil => List.splitOn_ne_nil ',' sports ?_
              rw [hsplit, hnil]
              rfl

/-- **What `ParseTrunkPoint` accepts**, and what it returns. -/
theorem parseTrunkPoint_true_iff :
    parseTrunkPoint makeAddressV4 s points = some (true, points') ↔
      ∃ sip ip ports trailing, ReadsTrunk makeAddressV4 s sip ip ports trailing ∧
        points' = ports.map (Numeral.endpoint ip) := by
  constructor
  · exact reads_of_parseTrunkPoint
  · intro h
    obtain ⟨sip, ip, ports, trailing, hreads, rfl⟩ := h
    exact parseTrunkPoint_reads hreads points

/-- `ParseTrunkPoint` always returns. -/
theorem parseTrunkPoint_ne_none (makeAddressV4 : Text → Option Bytes) (s : Text)
    (points : List Endpoint) : parseTrunkPoint makeAddressV4 s points ≠ none := by
  unfold parseTrunkPoint
  split
  · simp
  · split_ifs
    · simp
    · simp only
      split
      · simp
      · exact portLoop_ne_none (Nat.lt_succ_self _)
