import Freja.Socks.Protocol

namespace Freja.Socks
open Domain Audit Effect Bytes IpAddress

variable (sha256 : List UInt8 → Digest) (parseIp : String → Option IpAddr)

-- The messages as the protocol describes them, one after another.
def lengthByte (field : List UInt8) : UInt8 := UInt8.ofNat field.length

def requiredMethod : Option Digest → UInt8
  | none => 0
  | some _ => 2

def Greeting (authentication : Option Digest) (taken : List UInt8) : Prop :=
  ∃ methods : List UInt8, methods.length ≤ 255 ∧ requiredMethod authentication ∈ methods ∧
    taken = 5 :: lengthByte methods :: methods

def Field (field : List UInt8) : Prop := field ≠ [] ∧ field.length ≤ 255

def Credentials : Option Digest → List UInt8 → Prop
  | none,taken => taken = []
  | some digest,taken => ∃ username password, Field username ∧ Field password ∧
      sha256 (username ++ 58 :: password) = digest ∧
      taken = 1 :: lengthByte username :: (username ++ lengthByte password :: password)

-- A domain field names a target that the endpoint parser accepts: an address
-- literal or a valid host name.
inductive Encodes : TargetHost → List UInt8 → Prop
  | ipv4 (a b c d : UInt8) : Encodes (.ip (.v4 a b c d)) (1 :: IpAddr.octets (.v4 a b c d))
  | ipv6 (segments : List UInt16) (eight : segments.length = 8) :
      Encodes (.ip (.v6 segments eight)) (4 :: IpAddr.octets (.v6 segments eight))
  | domain (text : String) (field : Field (utf8 text)) (valid : TargetHost.parse parseIp text = .ok host) :
      Encodes host (3 :: lengthByte (utf8 text) :: utf8 text)

def ConnectRequest (taken : List UInt8) (target : TargetHost × Port) : Prop :=
  ∃ address, Encodes parseIp target.1 address ∧ taken = 5 :: 1 :: 0 :: (address ++ bigEndian 2 target.2.value)

def Handshake (authentication : Option Digest) (taken : List UInt8) (target : TargetHost × Port) : Prop :=
  ∃ greeting credentials request, taken = greeting ++ (credentials ++ request) ∧ Greeting authentication greeting ∧
    Credentials sha256 authentication credentials ∧ ConnectRequest parseIp request target

theorem readExact_reads (count : Nat) (stage : String) :
    Reads Session.input (readExact count stage) (fun taken value => taken = value.toList) :=
  reads_takeExact (fun _ _ => rfl) count _

theorem writeAll_reads (bytes : List UInt8) :
    Reads Session.input (writeAll bytes) (fun taken _ => taken = []) :=
  reads_modify (fun _ => rfl)

theorem publishAuthentication_reads (authenticated : Bool) :
    Reads Session.input (publishAuthentication authenticated) (fun taken _ => taken = []) :=
  reads_modify (fun _ => rfl)

theorem fail_reads (error : SocksError) : Reads Session.input (fail error : SocksTask α) (fun _ _ => False) :=
  reads_throw _

theorem refuse_reads (bytes : List UInt8) (error : SocksError) :
    Reads Session.input (do writeAll bytes; fail error : SocksTask α) (fun _ _ => False) := by
  apply reads_iff (reads_bind (writeAll_reads bytes) (fun _ => fail_reads error))
  intro taken value
  rw [sequence_silent]

theorem fold_difference (pairs : List (UInt8 × UInt8)) (start : UInt8) :
    pairs.foldl (fun difference pair => difference ||| (pair.1 ^^^ pair.2)) start = 0 ↔
      start = 0 ∧ ∀ pair ∈ pairs, pair.1 = pair.2 := by
  induction pairs generalizing start with
  | nil => simp
  | cons pair rest ih =>
      rw [List.foldl_cons,ih,List.forall_mem_cons,UInt8.or_eq_zero_iff,UInt8.xor_eq_zero_iff]
      exact and_assoc

theorem constantTimeEqual_iff (left right : List UInt8) : constantTimeEqual left right = true ↔ left = right := by
  have pairwise : (∀ pair ∈ left.zip right, pair.1 = pair.2) ↔ ∀ {a b : UInt8}, (a,b) ∈ left.zip right → a = b :=
    ⟨fun all a b member => all (a,b) member,fun all pair member => all member⟩
  unfold constantTimeEqual
  rw [Bool.and_eq_true_iff,beq_iff_eq,beq_iff_eq,fold_difference,pairwise]
  simp only [true_and]
  rw [← List.forall₂_iff_zip,List.forall₂_eq_eq_eq]

theorem counted_length {count : UInt8} (items : Vector UInt8 count.toNat) :
    items.toList.length ≤ 255 ∧ lengthByte items.toList = count := by
  have small := count.toNat_lt
  have length : items.toList.length = count.toNat := by simp
  unfold lengthByte
  rw [length,UInt8.ofNat_toNat]
  exact ⟨by omega,rfl⟩

theorem counted_field {count : UInt8} (items : Vector UInt8 count.toNat) (some_there : count ≠ 0) :
    Field items.toList := by
  refine ⟨?_,(counted_length items).1⟩
  intro empty
  have length : items.toList.length = count.toNat := by simp
  rw [empty] at length
  exact some_there (UInt8.toNat_inj.mp length.symm)

theorem exists_counted (short : field.length ≤ 255) :
    ∃ items : Vector UInt8 (lengthByte field).toNat, items.toList = field := by
  apply exists_vector
  unfold lengthByte
  rw [UInt8.toNat_ofNat']
  omega

theorem Field.counted (filled : Field field) : lengthByte field ≠ 0 := by
  intro zero
  have length := congrArg UInt8.toNat zero
  unfold lengthByte at length
  rw [UInt8.toNat_ofNat'] at length
  have short := filled.2
  change field.length % 256 = 0 at length
  exact filled.1 (List.length_eq_zero_iff.mp (by omega))

theorem settleAuthentication_reads (authenticated : Bool) :
    Reads Session.input (settleAuthentication authenticated) (fun taken _ => authenticated = true ∧ taken = []) := by
  apply reads_iff
  · apply reads_bind (publishAuthentication_reads authenticated)
    intro _
    apply reads_bind (writeAll_reads _)
    intro _
    apply reads_ite (reads_pure ()) (fail_reads .authenticationFailed)
  · intro taken value
    simp [sequence_silent]

theorem authenticateUsernamePassword_reads (expected : Digest) :
    Reads Session.input (do settleAuthentication (← authenticateUsernamePassword sha256 expected))
      (fun taken _ => Credentials sha256 (some expected) taken) := by
  apply reads_iff
  · apply reads_bind
    · apply reads_bind (readExact_reads 2 "authentication username")
      intro header
      apply reads_ite (reads_pure false)
      apply reads_bind (readExact_reads _ "authentication username")
      intro username
      apply reads_bind (readExact_reads 1 "authentication password length")
      intro passwordLength
      apply reads_ite (reads_pure false)
      apply reads_bind (readExact_reads _ "authentication password")
      intro password
      exact reads_pure _
    · exact settleAuthentication_reads
  · intro taken value
    simp only [sequence_exact]
    constructor
    · intro parts
      obtain ⟨early,late,authenticated,split,message,yes,done⟩ := parts
      obtain ⟨header,rest,first,message⟩ := sequence_exact.mp message
      rcases message with ⟨_,_,no⟩ | ⟨greeted,username,rest,second,passwordLength,rest,third,message⟩
      · rw [yes] at no
        cases no
      · rcases message with ⟨_,_,no⟩ | ⟨filled,password,rest,fourth,empty,verdict⟩
        · rw [yes] at no
          cases no
        · have version : header.get 0 = 1 ∧ header.get 1 ≠ 0 := by simpa [authVersion] using greeted
          have there : passwordLength.get 0 ≠ 0 := by simpa using filled
          have matched := (constantTimeEqual_iff _ _).mp (verdict.symm.trans yes)
          refine ⟨username.toList,password.toList,counted_field username version.2,counted_field password there,
            Vector.toList_inj.mp matched,?_⟩
          rw [split,first,second,third,fourth,empty,done,vector_two,vector_one,version.1,(counted_length username).2,
            (counted_length password).2]
          simp
    · intro message
      obtain ⟨username,password,named,secret,digest,split⟩ := message
      obtain ⟨name,nameList⟩ := exists_counted named.2
      obtain ⟨word,wordList⟩ := exists_counted secret.2
      refine ⟨taken,[],true,(List.append_nil _).symm,sequence_exact.mpr ⟨#v[1,lengthByte username],
        name.toList ++ lengthByte password :: word.toList,?_,.inr ⟨?_,name,lengthByte password :: word.toList,rfl,
          #v[lengthByte password],word.toList,rfl,.inr ⟨?_,word,[],(List.append_nil _).symm,rfl,?_⟩⟩⟩,rfl,rfl⟩
      · rw [split,nameList,wordList]
        rfl
      · simpa [authVersion,Vector.get] using named.counted
      · simpa [Vector.get] using secret.counted
      · change true = constantTimeEqual (sha256 (name.toList ++ 58 :: word.toList)).toList expected.toList
        rw [nameList,wordList,digest]
        exact ((constantTimeEqual_iff _ _).mpr rfl).symm

theorem negotiateAuthentication_reads (authentication : Option Digest) :
    Reads Session.input (negotiateAuthentication sha256 authentication)
      (fun taken _ => ∃ greeting credentials, taken = greeting ++ credentials ∧ Greeting authentication greeting ∧
        Credentials sha256 authentication credentials) := by
  have desired : desiredMethod authentication = requiredMethod authentication := by
    cases authentication <;> rfl
  have settles : Reads Session.input (match authentication with
      | none => return ()
      | some expected => do settleAuthentication (← authenticateUsernamePassword sha256 expected))
      (fun taken _ => Credentials sha256 authentication taken) := by
    cases authentication with
    | none =>
        apply reads_iff (reads_pure ())
        intro taken value
        simp [Credentials]
    | some expected => exact authenticateUsernamePassword_reads sha256 expected
  apply reads_iff
  · apply reads_bind (readExact_reads 2 "greeting")
    intro greeting
    apply reads_ite (fail_reads .unsupportedVersion)
    apply reads_bind (readExact_reads _ "authentication methods")
    intro methods
    apply reads_ite (refuse_reads _ .noAcceptableAuthentication)
    apply reads_bind (writeAll_reads _)
    intro _
    exact settles
  · intro taken value
    simp only [sequence_exact,sequence_silent,and_false,false_or]
    constructor
    · intro parts
      obtain ⟨greeting,rest,first,version,methods,rest,second,offered,settled⟩ := parts
      have five : greeting.get 0 = 5 := by simpa [socksVersion] using version
      have offers : requiredMethod authentication ∈ methods.toList := by simpa [desired] using offered
      refine ⟨greeting.toList ++ methods.toList,rest,by rw [first,second,List.append_assoc],
        ⟨methods.toList,(counted_length methods).1,offers,?_⟩,settled⟩
      rw [vector_two,five,(counted_length methods).2]
      rfl
    · intro parts
      obtain ⟨greeting,credentials,split,⟨methods,short,offers,message⟩,settled⟩ := parts
      obtain ⟨listed,methodList⟩ := exists_counted short
      refine ⟨#v[5,lengthByte methods],listed.toList ++ credentials,?_,by simp [socksVersion,Vector.get],
        listed,credentials,rfl,?_,settled⟩
      · rw [split,message,methodList]
        rfl
      · have listing : requiredMethod authentication ∈ listed.toList := methodList.symm ▸ offers
        change ¬(!listed.toList.contains (desiredMethod authentication)) = true
        simpa [desired] using listing

theorem fromUtf8_some : fromUtf8 bytes = some text ↔ bytes = utf8 text := by
  unfold fromUtf8
  constructor
  · intro decoded
    dsimp only at decoded
    split at decoded
    · rename_i same
      cases decoded
      exact same.symm
    · cases decoded
  · intro same
    rw [same,Utf8.decodeLossy_utf8,String.ofList_toList]
    simp

theorem parseDomain_ok : parseDomain parseIp name = .ok host ↔
    ∃ text, name = utf8 text ∧ TargetHost.parse parseIp text = .ok host := by
  unfold parseDomain
  cases decoded : fromUtf8 name with
  | none =>
      constructor
      · intro done
        cases done
      · intro given
        obtain ⟨text,same,_⟩ := given
        rw [fromUtf8_some.mpr same] at decoded
        cases decoded
  | some text =>
      have same := fromUtf8_some.mp decoded
      constructor
      · intro done
        exact ⟨text,same,mapError_ok.mp done⟩
      · intro given
        obtain ⟨other,sameToo,parsed⟩ := given
        rw [fromUtf8_some.mpr sameToo] at decoded
        cases decoded
        exact mapError_ok.mpr parsed

theorem readHost_reads (addressType : UInt8) :
    Reads Session.input (readHost parseIp addressType)
      (fun taken host => Encodes parseIp host (addressType :: taken)) := by
  apply reads_iff
  · unfold readHost
    apply reads_ite
    · apply reads_bind (readExact_reads 4 "IPv4 address")
      intro octets
      exact reads_pure _
    · apply reads_ite
      · apply reads_bind (readExact_reads 1 "domain length")
        intro length
        apply reads_ite (fail_reads .malformedRequest)
        apply reads_bind (readExact_reads _ "domain")
        intro name
        exact reads_ofExcept _
      · apply reads_ite
        · apply reads_bind (readExact_reads 16 "IPv6 address")
          intro octets
          exact reads_pure _
        · exact refuse_reads _ .unsupportedAddressType
  · intro taken host
    simp only [sequence_exact,and_false,false_or,or_false]
    constructor
    · intro parts
      rcases parts with ⟨kind,octets,rest,split,empty,same⟩ |
        ⟨_,⟨kind,length,rest,split,filled,name,rest,splitLater,empty,parsed⟩ | ⟨_,kind,octets,rest,split,empty,same⟩⟩
      · rw [kind,split,empty,same,vector_four]
        exact .ipv4 _ _ _ _
      · obtain ⟨text,written,valid⟩ := (parseDomain_ok parseIp).mp parsed
        have there : length.get 0 ≠ 0 := by simpa using filled
        have field := counted_field name there
        have count := (counted_length name).2
        rw [written] at field count
        rw [kind,split,splitLater,empty,vector_one,written,← count,List.append_nil]
        exact .domain text field valid
      · rw [kind,split,empty,same]
        have octetList : IpAddr.octets (.ofOctets16 octets) = octets.toList := octets_segmentsOf _ (by simp)
        rw [List.append_nil,← octetList]
        exact .ipv6 _ _
    · intro encoded
      cases encoded with
      | ipv4 a b c d => exact .inl ⟨rfl,#v[a,b,c,d],[],rfl,rfl,rfl⟩
      | ipv6 segments eight =>
          have length : (IpAddr.octets (.v6 segments eight)).length = 16 := by
            simp [IpAddr.octets,List.length_flatMap,eight]
          obtain ⟨octets,octetList⟩ := exists_vector _ length
          refine .inr ⟨by decide,.inr ⟨by decide,rfl,octets,[],?_,rfl,?_⟩⟩
          · rw [octetList,List.append_nil]
          · have same : segmentsOf octets.toList = segments := by
              rw [octetList]
              exact segmentsOf_octets segments
            unfold IpAddr.ofOctets16
            congr 2
            exact same.symm
      | domain text field valid =>
          obtain ⟨name,nameList⟩ := exists_counted field.2
          refine .inr ⟨by decide,.inl ⟨rfl,#v[lengthByte (utf8 text)],utf8 text,rfl,?_,name,[],?_,rfl,?_⟩⟩
          · simpa [Vector.get] using field.counted
          · rw [List.append_nil]
            exact nameList.symm
          · exact (parseDomain_ok parseIp).mpr ⟨text,nameList,valid⟩

theorem port_bytes (high low : UInt8) : bigEndian 2 (high.toNat * 256 + low.toNat) = [high,low] := by
  have first := high.toNat_lt
  have second := low.toNat_lt
  have front : UInt8.ofNat ((high.toNat * 256 + low.toNat) / 256) = high := by
    apply UInt8.toNat_inj.mp
    rw [UInt8.toNat_ofNat']
    omega
  have back : UInt8.ofNat (high.toNat * 256 + low.toNat) = low := by
    apply UInt8.toNat_inj.mp
    rw [UInt8.toNat_ofNat']
    omega
  simp [bigEndian,front,back]

theorem bytes_port (fits : value ≤ 65535) :
    (UInt8.ofNat (value / 256)).toNat * 256 + (UInt8.ofNat value).toNat = value := by
  rw [UInt8.toNat_ofNat',UInt8.toNat_ofNat']
  omega

theorem port_new : Port.new value = .ok port ↔ port.value = value := by
  unfold Port.new
  constructor
  · intro done
    split at done
    · cases done
      rfl
    · cases done
  · intro same
    have range := port.range
    rw [same] at range
    rw [dif_pos range]
    cases port
    cases same
    rfl

theorem readPort_reads : Reads Session.input readPort (fun taken port => taken = bigEndian 2 port.value) := by
  apply reads_iff
  · apply reads_bind (readExact_reads 2 "destination port")
    intro bytes
    exact reads_ofExcept _
  · intro taken port
    simp only [sequence_exact,mapError_ok,port_new]
    constructor
    · intro parts
      obtain ⟨bytes,rest,split,empty,value⟩ := parts
      rw [split,empty,value,port_bytes,vector_two,List.append_nil]
    · intro message
      refine ⟨#v[UInt8.ofNat (port.value / 256),UInt8.ofNat port.value],[],?_,rfl,(bytes_port port.range.2).symm⟩
      rw [message,List.append_nil]
      simp [bigEndian]

theorem readRequest_reads : Reads Session.input (readRequest parseIp) (ConnectRequest parseIp) := by
  apply reads_iff
  · apply reads_bind (readExact_reads 4 "request header")
    intro header
    apply reads_ite (fail_reads .malformedRequest)
    apply reads_ite (refuse_reads _ .unsupportedCommand)
    apply reads_bind (readHost_reads parseIp _)
    intro host
    apply reads_bind readPort_reads
    intro port
    exact reads_pure _
  · intro taken target
    simp only [sequence_exact,and_false,false_or]
    constructor
    · intro parts
      obtain ⟨header,rest,split,plain,command,address,later,host,parts,encoded,more⟩ := parts
      obtain ⟨port,last,number,ports,written,empty,same⟩ := more
      have fields : header.get 0 = 5 ∧ header.get 2 = 0 := by simpa [socksVersion,socksReserved] using plain
      have connects : header.get 1 = 1 := by simpa [socksCommandConnect] using command
      refine ⟨header.get 3 :: address,by rw [same]; exact encoded,?_⟩
      rw [split,parts,ports,written,empty,same,vector_four,fields.1,fields.2,connects,List.append_nil]
      rfl
    · intro parts
      obtain ⟨address,encoded,message⟩ := parts
      obtain ⟨host,port⟩ := target
      cases address with
      | nil => cases encoded
      | cons kind address =>
          refine ⟨#v[5,1,0,kind],address ++ bigEndian 2 port.value,?_,by simp [socksVersion,socksReserved,Vector.get],
            by simp [socksCommandConnect,Vector.get],address,_,host,rfl,encoded,bigEndian 2 port.value,[],port,
            (List.append_nil _).symm,rfl,rfl,rfl⟩
          rw [message]
          rfl

def handshake (authentication : Option Digest) : SocksTask (TargetHost × Port) := do
  negotiateAuthentication sha256 authentication
  readRequest parseIp

theorem handshake_reads (authentication : Option Digest) :
    Reads Session.input (handshake sha256 parseIp authentication) (Handshake sha256 parseIp authentication) := by
  apply reads_iff (reads_bind (negotiateAuthentication_reads sha256 authentication) (fun _ => readRequest_reads parseIp))
  intro taken target
  constructor
  · intro parts
    obtain ⟨early,request,_,split,⟨greeting,credentials,splitEarly,greets,proves⟩,requests⟩ := parts
    refine ⟨greeting,credentials,request,?_,greets,proves,requests⟩
    rw [split,splitEarly,List.append_assoc]
  · intro parts
    obtain ⟨greeting,credentials,request,split,greets,proves,requests⟩ := parts
    refine ⟨greeting ++ credentials,request,(),?_,⟨greeting,credentials,rfl,greets,proves⟩,requests⟩
    rw [split,List.append_assoc]

theorem readExact_frames (count : Nat) (stage : String) : Frames Session.authorizing (readExact count stage) := by
  apply frames_takeExact
  intro session rest
  rfl

theorem publishAuthentication_frames (authenticated : Bool) :
    Frames Session.authorizing (publishAuthentication authenticated) := frames_modify (fun _ => rfl)

theorem writeAll_frames (bytes : List UInt8) : Frames Session.authorizing (writeAll bytes) := frames_modify (fun _ => rfl)

theorem fail_frames (error : SocksError) : Frames Session.authorizing (fail error : SocksTask α) := frames_throw _

theorem settleAuthentication_frames (authenticated : Bool) :
    Frames Session.authorizing (settleAuthentication authenticated) := by
  apply frames_bind (publishAuthentication_frames authenticated)
  intro _
  apply frames_bind (writeAll_frames _)
  intro _
  exact frames_ite (frames_pure ()) (fail_frames _)

theorem authenticateUsernamePassword_frames (expected : Digest) :
    Frames Session.authorizing (authenticateUsernamePassword sha256 expected) := by
  apply frames_bind (readExact_frames 2 _)
  intro header
  apply frames_ite (frames_pure false)
  apply frames_bind (readExact_frames _ _)
  intro username
  apply frames_bind (readExact_frames 1 _)
  intro passwordLength
  apply frames_ite (frames_pure false)
  apply frames_bind (readExact_frames _ _)
  intro password
  exact frames_pure _

theorem negotiateAuthentication_frames (authentication : Option Digest) :
    Frames Session.authorizing (negotiateAuthentication sha256 authentication) := by
  apply frames_bind (readExact_frames 2 _)
  intro greeting
  apply frames_ite (fail_frames _)
  apply frames_bind (readExact_frames _ _)
  intro methods
  apply frames_ite
  · exact frames_bind (writeAll_frames _) (fun _ => fail_frames _)
  · apply frames_bind (writeAll_frames _)
    intro _
    cases authentication with
    | none => exact frames_pure ()
    | some expected =>
        exact frames_bind (authenticateUsernamePassword_frames sha256 expected) settleAuthentication_frames

theorem readHost_frames (addressType : UInt8) : Frames Session.authorizing (readHost parseIp addressType) := by
  apply frames_ite
  · exact frames_bind (readExact_frames 4 _) (fun _ => frames_pure _)
  · apply frames_ite
    · apply frames_bind (readExact_frames 1 _)
      intro length
      apply frames_ite (fail_frames _)
      exact frames_bind (readExact_frames _ _) (fun _ => frames_ofExcept _)
    · apply frames_ite
      · exact frames_bind (readExact_frames 16 _) (fun _ => frames_pure _)
      · exact frames_bind (writeAll_frames _) (fun _ => fail_frames _)

theorem readRequest_frames : Frames Session.authorizing (readRequest parseIp) := by
  apply frames_bind (readExact_frames 4 _)
  intro header
  apply frames_ite (fail_frames _)
  apply frames_ite
  · exact frames_bind (writeAll_frames _) (fun _ => fail_frames _)
  · apply frames_bind (readHost_frames parseIp _)
    intro host
    apply frames_bind (frames_bind (readExact_frames 2 _) (fun _ => frames_ofExcept _))
    intro port
    exact frames_pure _

theorem handshake_frames (authentication : Option Digest) :
    Frames Session.authorizing (handshake sha256 parseIp authentication) :=
  frames_bind (negotiateAuthentication_frames sha256 authentication) (fun _ => readRequest_frames parseIp)

variable (authorizeAndResolve : RequestedTargetFacts → Except Proxy.ProxyError (List SocketAddr))
  (connectAny : List SocketAddr → Except ConnectError (Option (IpAddr × Nat))) (peer : IpAddr)

-- What a session does with its target.
def afterHandshake (target : TargetHost × Port) : SocksTask (List UInt8) := do
  let requested : RequestedTargetFacts := ⟨peer,target.1,target.2,.tcp⟩
  modify (fun session => {session with authorizing := some requested})
  openRelay authorizeAndResolve connectAny requested

theorem runSocksSession_eq (authentication : Option Digest) :
    runSocksSession sha256 parseIp authentication peer authorizeAndResolve connectAny =
      handshake sha256 parseIp authentication >>= afterHandshake authorizeAndResolve connectAny peer := by
  unfold handshake
  rw [bind_assoc]
  rfl

theorem openRelay_session (requested : RequestedTargetFacts) (session : Session) :
    let ended := (openRelay authorizeAndResolve connectAny requested).run session
    (stateOf ended).authorizing = session.authorizing ∧ (stateOf ended).input = session.input ∧
      ∀ relayed after, ended = .ok relayed after → relayed = session.input := by
  unfold openRelay
  cases authorizeAndResolve requested with
  | error => exact ⟨rfl,rfl,nofun⟩
  | ok addresses =>
      dsimp only
      cases connectAny addresses with
      | error => exact ⟨rfl,rfl,nofun⟩
      | ok =>
          refine ⟨rfl,rfl,?_⟩
          intro relayed after done
          cases done
          rfl

-- A session hands on exactly the target that the stream encodes, if the stream
-- begins with a handshake, and has then taken the handshake and nothing else.
theorem session_handshake (authentication : Option Digest) (stream : List UInt8) :
    let ended := (runSocksSession sha256 parseIp authentication peer authorizeAndResolve connectAny).run (.start stream)
    (∀ requested rest, (stateOf ended).authorizing = some requested ∧ (stateOf ended).input = rest ↔
      ∃ taken target, stream = taken ++ rest ∧ Handshake sha256 parseIp authentication taken target ∧
        requested = ⟨peer,target.1,target.2,.tcp⟩) ∧
    ∀ relayed after, ended = .ok relayed after →
      ∃ taken target, stream = taken ++ relayed ∧ Handshake sha256 parseIp authentication taken target := by
  intro ended
  have reads := handshake_reads sha256 parseIp authentication
  have whole : ended = (handshake sha256 parseIp authentication >>=
      afterHandshake authorizeAndResolve connectAny peer).run (.start stream) := by
    rw [← runSocksSession_eq]
  cases shaken : (handshake sha256 parseIp authentication).run (.start stream) with
  | error =>
      -- Without a handshake nothing is handed on.
      have framed := handshake_frames sha256 parseIp authentication (.start stream)
      rw [shaken] at framed
      rw [run_bind_error shaken] at whole
      rw [whole]
      refine ⟨?_,nofun⟩
      intro requested rest
      constructor
      · intro reached
        have absent : none = some requested := framed.symm.trans reached.1
        cases absent
      · intro given
        obtain ⟨taken,target,split,handshakes,_⟩ := given
        obtain ⟨after,done,_⟩ := reads.complete (show (Session.start stream).input = taken ++ rest from split) handshakes
        rw [shaken] at done
        cases done
  | ok target middle =>
      obtain ⟨taken,split,handshakes⟩ := reads.sound shaken
      obtain ⟨handed,left,relays⟩ := openRelay_session authorizeAndResolve connectAny ⟨peer,target.1,target.2,.tcp⟩
        {middle with authorizing := some ⟨peer,target.1,target.2,.tcp⟩}
      rw [run_bind_ok shaken] at whole
      change ended = (openRelay authorizeAndResolve connectAny ⟨peer,target.1,target.2,.tcp⟩).run
        {middle with authorizing := some ⟨peer,target.1,target.2,.tcp⟩} at whole
      rw [← whole] at handed left relays
      refine ⟨?_,?_⟩
      · intro requested rest
        constructor
        · intro reached
          rw [handed,left] at reached
          refine ⟨taken,target,?_,handshakes,(Option.some.inj reached.1).symm⟩
          rw [← reached.2]
          exact split
        · intro given
          obtain ⟨other,found,parts,encoded,same⟩ := given
          obtain ⟨after,done,remaining⟩ := reads.complete (show (Session.start stream).input = other ++ rest from parts)
            encoded
          rw [shaken] at done
          cases done
          rw [handed,left,same]
          exact ⟨rfl,remaining⟩
      · intro relayed after done
        rw [relays relayed after done]
        exact ⟨taken,target,split,handshakes⟩

end Freja.Socks
