import TealDrive.Client.Address

namespace TealDrive

/-!
# Forwarded addresses

Every proxy adds the address of its peer to the end of a header, on a line of its
own or behind a comma.  What stands before the first proxy that is trusted was
written by whoever liked to.  The address is therefore looked for from the right, and
the first one that is not trusted is the client's.
-/

/-- The values of the headers, by their names in lower case. -/
abbrev HeaderMap := List (Text × List UInt8)

def HeaderMap.getAll (headers : HeaderMap) (name : Text) : List (List UInt8) :=
  (headers.filter (fun header => header.1 == name)).map Prod.snd

namespace ClientIpHeader

def name : ClientIpHeader -> Text
  | xForwardedFor => "x-forwarded-for".toList
  | xRealIp => "x-real-ip".toList
  | cfConnectingIp => "cf-connecting-ip".toList

end ClientIpHeader

/-- The addresses of one line, up to the first that cannot be read or is one too
many. -/
def readParts : List Text -> List IpAddr -> Option (List IpAddr)
  | [], chain => some chain
  | part :: rest, chain =>
      match IpAddr.parse part.trim with
      | none => none
      | some address =>
          if (chain ++ [address]).length > 32 then none else readParts rest (chain ++ [address])

def readChain : List (List UInt8) -> List IpAddr -> Option (List IpAddr)
  | [], chain => some chain
  | value :: rest, chain =>
      match headerText value with
      | none => none
      | some text => (readParts (text.splitOn ',') chain).bind (readChain rest)

namespace ProxyConfig

variable (config : ProxyConfig)

/-- The last address that is not trusted, or else the first. -/
def pick (chain : List IpAddr) (peer : IpAddr) : IpAddr :=
  match chain.reverse.find? (fun address => !config.trusts address) with
  | some address => address
  | none => chain.head?.getD peer

def resolve (peer : Option IpAddr) (headers : HeaderMap) : Option IpAddr :=
  match peer with
  | none => none
  | some peer =>
      if config.trusts peer = false then some peer
      else
        let values := headers.getAll config.clientIpHeader.name
        if values = [] ∨ (values.map List.length).sum > 8192 then some peer
        else if config.clientIpHeader ≠ .xForwardedFor then
          match values with
          | [value] =>
              some (((headerText value).bind (fun text => IpAddr.parse text.trim)).getD peer)
          | _ => some peer
        else
          match readChain values [] with
          | none => some peer
          | some chain => some (config.pick chain peer)

end ProxyConfig

/-! ## Networks by their leading bits -/

/-- The first bits of an address are those of a network. -/
def AgreesOn (base : IpAddr) (prefix_ : Nat) (address : IpAddr) : Prop :=
  match base, address.canonical with
  | .v4 base, .v4 address => forall index, index < prefix_ -> base.getMsbD index = address.getMsbD index
  | .v6 base, .v6 address => forall index, index < prefix_ -> base.getMsbD index = address.getMsbD index
  | _, _ => False

theorem getMsbD_mask {width prefix_ index : Nat} (bounded : prefix_ ≤ width) :
    (IpAddr.mask width prefix_).getMsbD index = decide (index < prefix_) := by
  unfold IpAddr.mask
  split
  · rw [BitVec.getMsbD_shiftLeft, BitVec.getMsbD_allOnes]
    apply decide_eq_decide.mpr
    omega
  · next none =>
      have zero : prefix_ = 0 := by omega
      subst zero
      simp

/-- Addresses agree under the mask if and only if they do on the leading bits. -/
theorem mask_eq_iff {width prefix_ : Nat} (bounded : prefix_ ≤ width)
    (first second : BitVec width) :
    first &&& IpAddr.mask width prefix_ = second &&& IpAddr.mask width prefix_ ↔
      forall index, index < prefix_ -> first.getMsbD index = second.getMsbD index := by
  constructor
  · intro same index inside
    have bits := congrArg (fun masked => masked.getMsbD index) same
    simpa [getMsbD_mask bounded, inside] using bits
  · intro agree
    apply BitVec.eq_of_getMsbD_eq
    intro index _
    rw [BitVec.getMsbD_and, BitVec.getMsbD_and, getMsbD_mask bounded]
    by_cases inside : index < prefix_
    · rw [agree index inside]
    · simp [inside]

theorem prefix_network {value : Text} {base : IpAddr} {prefix_ : Nat}
    (read : network value = some (base, prefix_)) : prefix_ ≤ base.width := by
  unfold network at read
  exact of_decide_eq_true (Option.filter_eq_some_iff.mp read).2

theorem contains_iff {base address : IpAddr} {prefix_ : Nat} (bounded : prefix_ ≤ base.width) :
    contains base prefix_ address = true ↔ AgreesOn base prefix_ address := by
  unfold contains AgreesOn
  cases base with
  | v4 base =>
      cases address.canonical with
      | v4 address => exact beq_iff_eq.trans (mask_eq_iff bounded base address)
      | v6 address => simp
  | v6 base =>
      cases address.canonical with
      | v4 address => simp
      | v6 address => exact beq_iff_eq.trans (mask_eq_iff bounded base address)

theorem ProxyConfig.trusts_iff {config : ProxyConfig} {address : IpAddr} :
    config.trusts address = true ↔ ∃ value, value ∈ config.trustedProxies ∧
      ∃ base prefix_, network value = some (base, prefix_) ∧ AgreesOn base prefix_ address := by
  unfold trusts
  rw [List.any_eq_true]
  constructor
  · rintro ⟨value, member, trusted⟩
    cases read : network value with
    | none =>
        rw [read] at trusted
        cases trusted
    | some found =>
        rw [read] at trusted
        exact ⟨value, member, found.1, found.2, read, (contains_iff (prefix_network read)).mp trusted⟩
  · rintro ⟨value, member, base, prefix_, read, covered⟩
    refine ⟨value, member, ?_⟩
    rw [read]
    exact (contains_iff (prefix_network read)).mpr covered

/-! ## The chain of addresses -/

/-- The addresses of one line. -/
def lineAddresses (value : List UInt8) : Option (List IpAddr) :=
  (headerText value).bind (fun text => (text.splitOn ',').mapM (fun part : Text => IpAddr.parse part.trim))

/-- The addresses of all lines, where every token is one. -/
def chainOf : List (List UInt8) -> Option (List IpAddr)
  | [] => some []
  | value :: rest =>
      (lineAddresses value).bind (fun first => (chainOf rest).map (fun later => first ++ later))

theorem readParts_iff {parts : List Text} {chain result : List IpAddr} (short : chain.length ≤ 32) :
    readParts parts chain = some result ↔
      ∃ more, parts.mapM (fun part : Text => IpAddr.parse part.trim) = some more ∧
        result = chain ++ more ∧ result.length ≤ 32 := by
  induction parts generalizing chain with
  | nil =>
      constructor
      · intro same
        cases same
        exact ⟨[], rfl, (List.append_nil _).symm, short⟩
      · rintro ⟨more, none, rfl, _⟩
        rw [List.mapM_nil] at none
        cases none
        rw [List.append_nil]
        rfl
  | cons part rest ih =>
      unfold readParts
      rw [List.mapM_cons]
      cases parsed : IpAddr.parse part.trim with
      | none => simp
      | some address =>
          by_cases long : (chain ++ [address]).length > 32
          · dsimp only
            rw [if_pos long]
            constructor
            · intro impossible
              cases impossible
            · rintro ⟨more, read, rfl, bounded⟩
              rcases Option.bind_eq_some_iff.mp read with ⟨_, same, later⟩
              cases same
              rcases Option.bind_eq_some_iff.mp later with ⟨others, _, joined⟩
              cases joined
              simp only [List.length_append, List.length_cons, List.length_nil] at long bounded
              omega
          · dsimp only
            rw [if_neg long, ih (Nat.not_lt.mp long)]
            constructor
            · rintro ⟨more, read, rfl, bounded⟩
              refine ⟨address :: more, ?_, by simp, bounded⟩
              rw [read]
              rfl
            · rintro ⟨more, read, rfl, bounded⟩
              rcases Option.bind_eq_some_iff.mp read with ⟨_, same, later⟩
              cases same
              rcases Option.bind_eq_some_iff.mp later with ⟨others, found, joined⟩
              cases joined
              exact ⟨others, found, by simp, bounded⟩

theorem readChain_iff {values : List (List UInt8)} {chain result : List IpAddr}
    (short : chain.length ≤ 32) :
    readChain values chain = some result ↔
      ∃ more, chainOf values = some more ∧ result = chain ++ more ∧ result.length ≤ 32 := by
  induction values generalizing chain with
  | nil =>
      constructor
      · intro same
        cases same
        exact ⟨[], rfl, (List.append_nil _).symm, short⟩
      · rintro ⟨more, none, rfl, _⟩
        cases none
        rw [List.append_nil]
        rfl
  | cons value rest ih =>
      unfold readChain chainOf lineAddresses
      cases text : headerText value with
      | none => simp
      | some text =>
          dsimp only
          constructor
          · intro read
            rcases Option.bind_eq_some_iff.mp read with ⟨middle, line, later⟩
            rcases (readParts_iff short).mp line with ⟨first, parsed, rfl, bounded⟩
            rcases (ih bounded).mp later with ⟨more, found, rfl, fits⟩
            refine ⟨first ++ more, ?_, List.append_assoc _ _ _, fits⟩
            rw [Option.bind_some, parsed, Option.bind_some, found]
            rfl
          · rintro ⟨more, found, rfl, fits⟩
            rcases Option.bind_eq_some_iff.mp found with ⟨first, parsed, later⟩
            rcases Option.map_eq_some_iff.mp later with ⟨others, tail, rfl⟩
            have bounded : (chain ++ first).length ≤ 32 := by
              simp only [List.length_append] at fits ⊢
              omega
            apply Option.bind_eq_some_iff.mpr
            refine ⟨chain ++ first, (readParts_iff short).mpr ⟨first, parsed, rfl, bounded⟩, ?_⟩
            exact (ih bounded).mpr ⟨others, tail, (List.append_assoc _ _ _).symm, fits⟩

theorem chainOf_append (before after : List (List UInt8)) :
    chainOf (before ++ after) =
      (chainOf before).bind (fun first => (chainOf after).map (fun later => first ++ later)) := by
  induction before with
  | nil =>
      rw [List.nil_append, chainOf, Option.bind_some]
      simp only [List.nil_append, Option.map_id']
  | cons value rest ih =>
      rw [List.cons_append, chainOf, chainOf, ih]
      cases lineAddresses value with
      | none => rfl
      | some first =>
          cases chainOf rest with
          | none => rfl
          | some middle =>
              cases chainOf after with
              | none => rfl
              | some later => simp

/-! ## Forwarding -/

/-- A token as a proxy writes it. -/
def TokenOf (token : List UInt8) (address : IpAddr) : Prop :=
  ∃ text : Text, headerText token = some text ∧ ',' ∉ text ∧ IpAddr.parse text.trim = some address

/-- The byte of a comma. -/
def comma : UInt8 := 44

/-- A token is added to the end of a header. -/
inductive Appends (token : List UInt8) : List (List UInt8) -> List (List UInt8) -> Prop where
  | line (values : List (List UInt8)) : Appends token values (values ++ [token])
  | comma (values : List (List UInt8)) (last : List UInt8) :
      Appends token (values ++ [last]) (values ++ [last ++ comma :: token])

/-- Header lines on their way from a client to the server.  The client's address is
added to whatever the lines were, and then addresses of trusted proxies are. -/
inductive Forwarded (config : ProxyConfig) (client : IpAddr) (before : List (List UInt8)) :
    List (List UInt8) -> Prop where
  | client {token : List UInt8} {values : List (List UInt8)} (spelled : TokenOf token client)
      (appended : Appends token before values) : Forwarded config client before values
  | proxy {token : List UInt8} {address : IpAddr} {values longer : List (List UInt8)}
      (earlier : Forwarded config client before values) (spelled : TokenOf token address)
      (trusted : config.trusts address = true) (appended : Appends token values longer) :
      Forwarded config client before longer

theorem headerText_append (before after : List UInt8) :
    headerText (before ++ after) =
      (headerText before).bind (fun first => (headerText after).map (fun later => first ++ later)) := by
  unfold headerText
  rw [List.all_append]
  cases before.all (fun byte => within 32 126 byte.toNat || byte == 9) with
  | false => simp
  | true =>
      cases after.all (fun byte => within 32 126 byte.toNat || byte == 9) with
      | false => simp
      | true => simp

theorem lineAddresses_of_token {token : List UInt8} {address : IpAddr}
    (spelled : TokenOf token address) : lineAddresses token = some [address] := by
  rcases spelled with ⟨text, read, plain, parsed⟩
  have whole : text.splitOn ',' = [text] := List.splitOn_eq_singleton plain
  unfold lineAddresses
  rw [read, Option.bind_some, whole, List.mapM_cons, parsed]
  rfl

/-- A token behind a comma adds its address to the line. -/
theorem lineAddresses_comma {last token : List UInt8} {address : IpAddr}
    (spelled : TokenOf token address) :
    lineAddresses (last ++ comma :: token) =
      (lineAddresses last).map (fun first => first ++ [address]) := by
  rcases spelled with ⟨text, read, plain, parsed⟩
  have separated : headerText (comma :: token) = some (',' :: text) := by
    rw [show comma :: token = [comma] ++ token from rfl, headerText_append, read]
    rfl
  have whole : text.splitOn ',' = [text] := List.splitOn_eq_singleton plain
  unfold lineAddresses
  rw [headerText_append, separated]
  cases headerText last with
  | none => rfl
  | some first =>
      simp only [Option.bind_some, Option.map_some]
      rw [List.splitOn_append_cons_self, whole, List.mapM_append, List.mapM_cons, parsed]
      cases (first.splitOn ',').mapM (fun part : Text => IpAddr.parse part.trim) with
      | none => rfl
      | some addresses => rfl

/-- A token at the end adds its address to the chain. -/
theorem Appends.chainOf {token : List UInt8} {address : IpAddr} {values longer : List (List UInt8)}
    (appended : Appends token values longer) (spelled : TokenOf token address) :
    TealDrive.chainOf longer =
      (TealDrive.chainOf values).map (fun chain => chain ++ [address]) := by
  cases appended with
  | line =>
      rw [chainOf_append, TealDrive.chainOf, lineAddresses_of_token spelled]
      cases TealDrive.chainOf values with
      | none => rfl
      | some chain => rfl
  | comma earlier last =>
      rw [chainOf_append, chainOf_append, TealDrive.chainOf, TealDrive.chainOf,
        lineAddresses_comma spelled]
      cases TealDrive.chainOf earlier with
      | none => rfl
      | some chain =>
          cases read : lineAddresses last with
          | none => simp [TealDrive.chainOf, read]
          | some addresses => simp [TealDrive.chainOf, read]

/-- Only trusted addresses stand behind the client's. -/
theorem Forwarded.chainOf {config : ProxyConfig} {client : IpAddr}
    {before values : List (List UInt8)} (forwarded : Forwarded config client before values)
    {chain : List IpAddr} (read : TealDrive.chainOf values = some chain) :
    ∃ front hops, chain = front ++ client :: hops ∧
      forall address, address ∈ hops -> config.trusts address = true := by
  induction forwarded generalizing chain with
  | client spelled appended =>
      rw [appended.chainOf spelled] at read
      rcases Option.map_eq_some_iff.mp read with ⟨front, _, rfl⟩
      exact ⟨front, [], rfl, fun address member => absurd member List.not_mem_nil⟩
  | @proxy token address _ _ earlier spelled trusted appended ih =>
      rw [appended.chainOf spelled] at read
      rcases Option.map_eq_some_iff.mp read with ⟨shorter, found, rfl⟩
      rcases ih found with ⟨front, hops, rfl, all⟩
      refine ⟨front, hops ++ [address], by simp, ?_⟩
      intro other member
      rcases List.mem_append.mp member with old | new
      · exact all other old
      · rw [List.mem_singleton.mp new]
        exact trusted

namespace ProxyConfig

variable {config : ProxyConfig} {peer client : IpAddr} {headers : HeaderMap}

/-- The trusted addresses at the end are passed over. -/
theorem pick_client {front hops : List IpAddr}
    (trusted : forall address, address ∈ hops -> config.trusts address = true)
    (untrusted : config.trusts client = false) :
    config.pick (front ++ client :: hops) peer = client := by
  have passed : hops.reverse.find? (fun address => !config.trusts address) = none := by
    apply List.find?_eq_none.mpr
    intro address member
    rw [trusted address (List.mem_reverse.mp member)]
    decide
  unfold pick
  rw [List.reverse_append, List.reverse_cons, List.find?_append, List.find?_append, passed,
    Option.none_or, List.find?_cons_of_pos (by rw [untrusted]; rfl)]
  rfl

theorem resolve_untrusted (untrusted : config.trusts peer = false) (headers : HeaderMap) :
    config.resolve (some peer) headers = some peer := by
  dsimp only [resolve]
  rw [if_pos untrusted]

theorem resolve_forwarded (mode : config.clientIpHeader = .xForwardedFor)
    (trusted : config.trusts peer = true) :
    config.resolve (some peer) headers =
      if headers.getAll config.clientIpHeader.name = [] ∨
          ((headers.getAll config.clientIpHeader.name).map List.length).sum > 8192 then some peer
      else
        match readChain (headers.getAll config.clientIpHeader.name) [] with
        | none => some peer
        | some chain => some (config.pick chain peer) := by
  dsimp only [resolve]
  rw [if_neg (by rw [trusted]; decide), if_neg (not_not_intro mode)]

end ProxyConfig

theorem Forwarded.nonempty {config : ProxyConfig} {client : IpAddr}
    {before values : List (List UInt8)} (forwarded : Forwarded config client before values) :
    values ≠ [] := by
  have added : forall {token : List UInt8} {shorter longer : List (List UInt8)},
      Appends token shorter longer -> longer ≠ [] := by
    intro token shorter longer appended
    cases appended with
    | line => simp
    | comma => simp
  cases forwarded with
  | client _ appended => exact added appended
  | proxy _ _ _ appended => exact added appended

/-- A client behind trusted proxies cannot choose its address.  Whatever headers it
sends, what is resolved is its own address or the one of the peer, and a peer that
is no trusted proxy is taken for the client. -/
theorem client_address_not_spoofed (config : ProxyConfig) (peer : IpAddr) (headers : HeaderMap) :
    (config.trusts peer = false -> config.resolve (some peer) headers = some peer) ∧
      (config.clientIpHeader = .xForwardedFor -> forall client before,
        config.trusts client = false ->
        Forwarded config client before (headers.getAll config.clientIpHeader.name) ->
        (config.resolve (some peer) headers = some client ∨
            config.resolve (some peer) headers = some peer) ∧
          forall chain, config.trusts peer = true ->
            chainOf (headers.getAll config.clientIpHeader.name) = some chain ->
            chain.length ≤ 32 ->
            ((headers.getAll config.clientIpHeader.name).map List.length).sum ≤ 8192 ->
            config.resolve (some peer) headers = some client) ∧
      forall address, config.trusts address = true ↔ ∃ value, value ∈ config.trustedProxies ∧
        ∃ base prefix_, network value = some (base, prefix_) ∧ AgreesOn base prefix_ address := by
  refine ⟨fun untrusted => ProxyConfig.resolve_untrusted untrusted headers, ?_,
    fun address => ProxyConfig.trusts_iff⟩
  intro mode client before stranger forwarded
  constructor
  · cases trusted : config.trusts peer with
    | false => exact Or.inr (ProxyConfig.resolve_untrusted trusted headers)
    | true =>
        rw [ProxyConfig.resolve_forwarded mode trusted]
        split
        · exact Or.inr rfl
        · cases read : readChain (headers.getAll config.clientIpHeader.name) [] with
          | none => exact Or.inr rfl
          | some chain =>
              rcases (readChain_iff (Nat.zero_le _)).mp read with ⟨more, found, rfl, _⟩
              rcases forwarded.chainOf found with ⟨front, hops, rfl, all⟩
              exact Or.inl (congrArg some (ProxyConfig.pick_client all stranger))
  · intro chain trusted found few small
    have read : readChain (headers.getAll config.clientIpHeader.name) [] = some chain :=
      (readChain_iff (Nat.zero_le _)).mpr ⟨chain, found, rfl, few⟩
    rcases forwarded.chainOf found with ⟨front, hops, rfl, all⟩
    rw [ProxyConfig.resolve_forwarded mode trusted, if_neg, read]
    · exact congrArg some (ProxyConfig.pick_client all stranger)
    · rintro (none | long)
      · exact forwarded.nonempty none
      · exact absurd small (Nat.not_le.mpr long)

namespace OneSpoof

def ascii (text : String) : List UInt8 := text.toList.map (fun symbol => UInt8.ofNat symbol.toNat)

def config : ProxyConfig := ⟨["10.0.0.0/8".toList], .xForwardedFor⟩

def peer : IpAddr := .v4 0x0a000001

def client : IpAddr := .v4 0xc6336402

/-- The client claims another address, and one proxy adds its peer's. -/
def headers : HeaderMap :=
  [("x-forwarded-for".toList, ascii "6.6.6.6, 198.51.100.2"),
    ("x-forwarded-for".toList, ascii "10.1.2.3")]

theorem forwarded :
    Forwarded config client [ascii "6.6.6.6"] (headers.getAll config.clientIpHeader.name) :=
  @Forwarded.proxy config client [ascii "6.6.6.6"] (ascii "10.1.2.3") (.v4 0x0a010203)
    [ascii "6.6.6.6, 198.51.100.2"] _
    (@Forwarded.client config client [ascii "6.6.6.6"] (ascii " 198.51.100.2") _
      ⟨" 198.51.100.2".toList, by decide, by decide, by decide⟩
      (.comma [] (ascii "6.6.6.6")))
    ⟨"10.1.2.3".toList, by decide, by decide, by decide⟩
    (by decide) (.line [ascii "6.6.6.6, 198.51.100.2"])

end OneSpoof

open OneSpoof in
theorem client_address_not_spoofed_proxied :
    config.resolve (some peer) headers = some client :=
  ((client_address_not_spoofed config peer headers).2.1 rfl client [ascii "6.6.6.6"]
    (by decide) forwarded).2 [.v4 0x06060606, client, .v4 0x0a010203] (by decide)
    (by decide) (by decide) (by decide)

end TealDrive
