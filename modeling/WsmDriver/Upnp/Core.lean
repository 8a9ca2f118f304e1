import WsmDriver.Effect.Program
import WsmDriver.Format.Text

/-!
# The UPnP client

`upnp_core.c` with the messages of `upnp_xml.c`: the steps of a session, and the parsers that take
the replies apart. The transport below it is what surrounds it.

## Representation

A text is the list of its bytes. `content` is memory: the bytes of the array, and behind them
whatever has been written over its end. The texts that are only ever written under a check of their
length are kept as texts.
-/

namespace WsmDriver.Upnp

open Effect Program
open Format (text cstr strstr)

/-! ## Constants -/

/-- `UPNP_OK`, `UPNP_ERR_PARSE`, `UPNP_ERR_TIMEOUT` and `UPNP_ERR_STEP`. -/
def upnpOk : ℤ := 0

def upnpErrParse : ℤ := 1

def upnpErrTimeout : ℤ := -1

def upnpErrStep : ℤ := -2

/-- `CONT_BUFFER_SIZE`, `SEND_BUFFER_SIZE` and `RECV_BUFFER_SIZE`. -/
def contBufferSize : ℕ := 2048

def sendBufferSize : ℕ := 4096

def recvBufferSize : ℕ := 4096

/-- `upnp_step_t`. -/
inductive UpnpStep
  | none | discovered | described
  deriving DecidableEq

/-- `upnp_action_t`. -/
inductive UpnpAction
  | deletePort | addPort
  deriving DecidableEq

/-- The static variables. -/
structure Statics where
  step : UpnpStep := .none
  descURL : List UInt8 := []
  descIP : List UInt8 := []
  descPORT : List UInt8 := []
  descLOCATION : List UInt8 := []
  controlURL : List UInt8 := []
  eventSubURL : List UInt8 := []
  content : List UInt8 := List.replicate contBufferSize 0
  deriving DecidableEq

/-! ## Operations -/

inductive UpnpOp
  | upnpTransportSsdp (groupIp : List UInt8) (groupPort localPort : UInt16) (msg : List UInt8)
      (timeoutMs : ℕ)
  | upnpTransportHttp (ip : List UInt8) (port : UInt16) (request : List UInt8) (timeoutMs : ℕ)
  | printf (label : String) (arg : List UInt8)

/-- What the transport answers: the bytes it has put in `recv_buffer`, or -1. -/
abbrev UpnpOp.Ans : UpnpOp → Type
  | .upnpTransportSsdp .. | .upnpTransportHttp .. => Option (List UInt8)
  | .printf .. => Unit

abbrev Client := Program Statics UpnpOp.Ans

/-- Perform an operation. -/
abbrev ask (o : UpnpOp) : Client o.Ans := perform o

/-! ## Messages -/

/-- `append`: what does not fit is left out. -/
def append (size : ℕ) (dest src : List UInt8) : List UInt8 :=
  if size - 1 ≤ dest.length then dest else dest ++ src.take (size - dest.length - 1)

/-- A message is built from its parts. -/
def compose (size : ℕ) (parts : List (List UInt8)) : List UInt8 := parts.foldl (append size) []

/-- What `append_uint` appends. -/
def uint (n : ℕ) : List UInt8 := text (toString n)

/-- What `append_host` appends. -/
def host (igdIp igdPort : List UInt8) : List (List UInt8) :=
  [text "Host: ", igdIp, text ":", igdPort]

def upnpXmlGetHeader (size : ℕ) (descLocation igdIp igdPort : List UInt8) : List UInt8 :=
  compose size ([text "GET ", descLocation, text " HTTP/1.1\r\n",
    text "Accept: text/xml, application/xml\r\n",
    text "User-Agent: Mozilla/4.0 (compatible; UPnP/1.0; Windows NT/5.1)\r\n"] ++
      host igdIp igdPort ++
    [text "\r\nConnection: close\r\nCache-Control: no-cache\r\nPragma: no-cache\r\n\r\n"])

def upnpXmlPostHeader (size contentLength : ℕ) (action : UpnpAction)
    (controlUrl igdIp igdPort : List UInt8) : List UInt8 :=
  compose size ([text "POST ", controlUrl, text " HTTP/1.1\r\n",
    text "Content-Type: text/xml; charset=\"utf-8\"\r\n",
    text "SOAPAction: \"urn:schemas-upnp-org:service:WANIPConnection:1#",
    text (if action = .addPort then "AddPortMapping\"" else "DeletePortMapping\""),
    text "\r\nUser-Agent: Mozilla/4.0 (compatible; UPnP/1.0; Windows NT/5.1)\r\n"] ++
      host igdIp igdPort ++
    [text "\r\nContent-Length: ", uint contentLength,
      text "\r\nConnection: close\r\nCache-Control: no-cache\r\nPragma: no-cache\r\n\r\n"])

def upnpXmlSubscribe (size : ℕ) (eventSubUrl igdIp igdPort localIp : List UInt8)
    (listenPort : UInt16) : List UInt8 :=
  compose size ([text "SUBSCRIBE ", eventSubUrl, text " HTTP/1.1\r\n"] ++ host igdIp igdPort ++
    [text "\r\nUSER-AGENT: Mozilla/4.0 (compatible; UPnP/1.1; Windows NT/5.1)\r\n",
      text "CALLBACK: <http://", localIp,
      text ":", uint listenPort.toNat, text "/>",
        text "\r\nNT: upnp:event\r\nTIMEOUT: Second-1800\r\n\r\n"])

/-- `soap_start` and `soap_end`. -/
def soapStart : List UInt8 :=
  text "<?xml version=\"1.0\"?>\r\n<SOAP-ENV:Envelope " ++
  text "xmlns:SOAP-ENV=\"http://schemas.xmlsoap.org/soap/envelope/\" " ++
  text "SOAP-ENV:encodingStyle=\"http://schemas.xmlsoap.org/soap/encoding/\"><SOAP-ENV:Body>"

def soapEnd : List UInt8 := text "</SOAP-ENV:Body></SOAP-ENV:Envelope>\r\n"

/-- An argument of an action, with its type. -/
def argument (name type : String) (value : List UInt8) : List (List UInt8) :=
  [text ("<" ++ name ++ " xmlns:dt=\"urn:schemas-microsoft-com:datatypes\" dt:dt=\"" ++ type ++
    "\">"), value, text ("</" ++ name ++ ">")]

def upnpXmlAddPort (size : ℕ) (protocol : List UInt8) (externalPort : UInt16)
    (internalIp : List UInt8) (internalPort : UInt16) (description : List UInt8) : List UInt8 :=
  compose size
    ([soapStart,
    text "<m:AddPortMapping xmlns:m=\"urn:schemas-upnp-org:service:WANIPConnection:1\">"] ++
    argument "NewRemoteHost" "string" [] ++
    argument "NewExternalPort" "ui2" (uint externalPort.toNat) ++
    argument "NewProtocol" "string" protocol ++
    argument "NewInternalPort" "ui2" (uint internalPort.toNat) ++
    argument "NewInternalClient" "string" internalIp ++
    argument "NewEnabled" "boolean" (text "1") ++
    argument "NewPortMappingDescription" "string" description ++
    argument "NewLeaseDuration" "ui4" (text "0") ++ [text "</m:AddPortMapping>", soapEnd])

def upnpXmlDeletePort (size : ℕ) (protocol : List UInt8) (externalPort : UInt16) : List UInt8 :=
  compose size
    ([soapStart,
    text "<m:DeletePortMapping xmlns:m=\"urn:schemas-upnp-org:service:WANIPConnection:1\">"] ++
    argument "NewRemoteHost" "string" [] ++
    argument "NewExternalPort" "ui2" (uint externalPort.toNat) ++
    argument "NewProtocol" "string" protocol ++ [text "</m:DeletePortMapping>", soapEnd])

/-! ## Parsers -/

/-- Bytes are stored from the start of `content` on, over its end if there are too many. -/
def storeContent (bytes : List UInt8) : Client Unit :=
  modify fun u ↦ { u with content := bytes ++ u.content.drop bytes.length }

/-- A difference of pointers, less the length of what is found there, as a `size_t`. -/
def sizeSub (distance len : ℕ) : ℕ := (UInt32.ofNat distance - UInt32.ofNat len).toNat

/-- `parse_http`. -/
def parseHttp (xml : List UInt8) : Client ℤ := do
  if (strstr xml (text "200 OK")).isSome = true then return upnpOk
  storeContent (List.replicate contBufferSize 0)
  -- `strncpy` of the first line; its length is not compared with the size of the array.
  match strstr xml (text "\r\n") with
  | some loc => storeContent (xml.take loc)
  | none => pure ()
  let u ← get
  ask (.printf "HTTP Error" (cstr u.content))
  return upnpErrParse

/-- `parse_ssdp` from the IP of the IGD on, in the URL that has been stored. -/
def parseUrl (url : List UInt8) : Client ℤ := do
  let some start := strstr url (text "http://") | return upnpErrParse
  let addr := url.drop (start + 7)
  let some len := strstr addr (text ":") | return upnpErrParse
  if 16 ≤ len then return upnpErrParse
  modify fun u ↦ { u with descIP := addr.take len }
  -- The port goes up to the path.
  let port := addr.drop (len + 1)
  let some len := strstr port (text "/") | return upnpErrParse
  if 6 ≤ len then return upnpErrParse
  modify fun u ↦ { u with descPORT := port.take len }
  let location := port.drop len
  if 64 ≤ location.length then return upnpErrParse
  modify fun u ↦ { u with descLOCATION := location }
  return upnpOk

/-- `parse_ssdp`. -/
def parseSsdp (xml : List UInt8) : Client ℤ := do
  let ret ← parseHttp xml
  if ret ≠ upnpOk then return upnpErrParse
  let some start := strstr xml (text "LOCATION: ") | return upnpErrParse
  let some dist := strstr (xml.drop start) (text "\r\n") | return upnpErrParse
  let len := sizeSub dist (text "LOCATION: ").length
  if 64 ≤ len then return upnpErrParse
  let url := (xml.drop (start + (text "LOCATION: ").length)).take len
  modify fun u ↦ { u with descURL := url }
  parseUrl url

/-- One of the two URLs of `parse_description`, if it is there and fits. -/
def serviceUrl (xml opening closing : List UInt8) : Option (List UInt8) := do
  let service ← strstr xml (text "urn:schemas-upnp-org:service:WANIPConnection:1")
  let start ← strstr (xml.drop service) opening
  let dist ← strstr (xml.drop (service + start)) closing
  let len := sizeSub dist opening.length
  if 64 ≤ len then none else some ((xml.drop (service + start + opening.length)).take len)

/-- `parse_description`. -/
def parseDescription (xml : List UInt8) : Client ℤ := do
  let ret ← parseHttp xml
  if ret ≠ upnpOk then return upnpErrParse
  let some url := serviceUrl xml (text "<controlURL>") (text "</controlURL>") | return upnpErrParse
  modify fun u ↦ { u with controlURL := url }
  let some url := serviceUrl xml (text "<eventSubURL>") (text "</eventSubURL>")
    | return upnpErrParse
  modify fun u ↦ { u with eventSubURL := url }
  return upnpOk

/-- The text between the tags, if they are there and it fits in `content`. -/
def element (xml opening closing : List UInt8) : Option (List UInt8) := do
  let start ← strstr xml opening
  let dist ← strstr (xml.drop start) closing
  let len := sizeSub dist opening.length
  if contBufferSize ≤ len then none else some ((xml.drop (start + opening.length)).take len)

/-- `copy_element`. -/
def copyElement (xml opening closing : List UInt8) : Client Bool := do
  match element xml opening closing with
  | none => return false
  | some bytes =>
    storeContent (bytes ++ [0])
    return true

/-- `print_element`, and as much of `parse_error` that finds an element. -/
def printElement (xml opening closing : List UInt8) (label : String) : Client Bool := do
  let found ← copyElement xml opening closing
  if found = true then
    let u ← get
    ask (.printf label (cstr u.content))
    return true
  else return false

/-- `upnp_parse_eventing`. -/
def upnpParseEventing (xml : List UInt8) : Client Unit := do
  discard (printElement xml (text "<PossibleConnectionTypes>") (text "</PossibleConnectionTypes>")
    "PossibleConnectionTypes")
  discard (printElement xml (text "<ConnectionStatus>") (text "</ConnectionStatus>")
    "ConnectionStatus")
  discard (printElement xml (text "<ExternalIPAddress>") (text "</ExternalIPAddress>")
    "ExternalIPAddress")
  discard (printElement xml (text "<PortMappingNumberOfEntries>")
    (text "</PortMappingNumberOfEntries>") "PortMappingNumberOfEntries")

/-- `C2D`, as it enters a sum. What a `char` above 127 is depends on the compiler. -/
def c2d (charSigned : Bool) (c : UInt8) : UInt32 :=
  if 0x30 ≤ c ∧ c ≤ 0x39 then c.toUInt32 - 0x30
  else if 0x61 ≤ c ∧ c ≤ 0x66 then 10 + c.toUInt32 - 0x61
  else if 0x41 ≤ c ∧ c ≤ 0x46 then 10 + c.toUInt32 - 0x41
  else if charSigned = true ∧ 0x80 ≤ c then c.toUInt32 - 0x100
  else c.toUInt32

/-- `ATOI`. -/
def atoi (charSigned : Bool) (str : List UInt8) (base : UInt32) : UInt16 :=
  (str.foldl (fun num c ↦ num * base + c2d charSigned c) 0).toUInt16

/-- `parse_error`. -/
def parseError (charSigned : Bool) (xml : List UInt8) : Client ℤ := do
  let found ← printElement xml (text "<faultstring>") (text "</faultstring>") "faultstring"
  if found = false then return upnpErrParse
  let found ← printElement xml (text "<errorCode>") (text "</errorCode>") "errorCode"
  if found = false then return upnpErrParse
  let u ← get
  let ret := atoi charSigned (cstr u.content) 10
  let found ← printElement xml (text "<errorDescription>") (text "</errorDescription>")
    "errorDescription"
  if found = false then return upnpErrParse
  return ret.toNat

/-! ## Steps -/

/-- `SSDP`. -/
def ssdp : List UInt8 :=
  text "M-SEARCH * HTTP/1.1\r\nHost:239.255.255.250:1900\r\n" ++
  text "ST:urn:schemas-upnp-org:device:InternetGatewayDevice:1\r\n" ++
  text "Man:\"ssdp:discover\"\r\nMX:3\r\n\r\n"

/-- `upnp_discover`. -/
def upnpDiscover : Client ℤ := do
  match ← ask (.upnpTransportSsdp (text "239.255.255.250") 1900 1901 ssdp 3000) with
  | none | some [] => return upnpErrTimeout
  | some (b :: reply) =>
    let ret ← parseSsdp (cstr (b :: reply))
    when (ret = upnpOk) do modify fun u ↦ { u with step := .discovered }
    return ret

/-- An exchange with the IGD: `upnp_transport_http` with `HTTP_TIMEOUT_MS`, and the text in
`recv_buffer` if there is one. -/
def exchange (charSigned : Bool) (request : List UInt8) : Client (Option (List UInt8)) := do
  let u ← get
  match ← ask (.upnpTransportHttp u.descIP (atoi charSigned u.descPORT 10) request 5000) with
  | none | some [] => return none
  | some (b :: reply) => return some (cstr (b :: reply))

/-- `upnp_get_description`. -/
def upnpGetDescription (charSigned : Bool) : Client ℤ := do
  let u ← get
  if u.step = .none then return upnpErrStep
  match ← exchange charSigned (upnpXmlGetHeader sendBufferSize u.descLOCATION u.descIP
    u.descPORT) with
  | none => return upnpErrTimeout
  | some xml =>
    let ret ← parseDescription xml
    when (ret = upnpOk) do modify fun u ↦ { u with step := .described }
    return ret

/-- `upnp_subscribe`. -/
def upnpSubscribe (charSigned : Bool) (localIp : List UInt8) (eventPort : UInt16) : Client ℤ := do
  let u ← get
  if u.step ≠ .described then return upnpErrStep
  match ← exchange charSigned
    (upnpXmlSubscribe sendBufferSize u.eventSubURL u.descIP u.descPORT localIp eventPort) with
  | none => return upnpErrTimeout
  | some xml => parseHttp xml

/-- `port_action`. -/
def portAction (charSigned : Bool) (action : UpnpAction) (expectResponse : List UInt8) :
    Client ℤ := do
  let u ← get
  if u.step ≠ .described then return upnpErrStep
  -- The body is still where it was built.
  let body := cstr u.content
  let header := upnpXmlPostHeader sendBufferSize body.length action u.controlURL u.descIP u.descPORT
  if sendBufferSize ≤ header.length + body.length then
    ask (.printf "UPnP: request does not fit the send buffer" [])
    return upnpErrParse
  match ← exchange charSigned (header ++ body) with
  | none => return upnpErrTimeout
  | some xml =>
    discard (parseHttp xml)
    if (strstr xml expectResponse).isSome = false then parseError charSigned xml
    else return upnpOk

/-- The two elements that confirm an action. -/
def UpnpAction.response : UpnpAction → List UInt8
  | .addPort =>
    text "u:AddPortMappingResponse xmlns:u=\"urn:schemas-upnp-org:service:WANIPConnection:1\""
  | .deletePort =>
    text "u:DeletePortMappingResponse xmlns:u=\"urn:schemas-upnp-org:service:WANIPConnection:1\""

/-- `upnp_add_port`. -/
def upnpAddPort (charSigned : Bool) (protocol : List UInt8) (externalPort : UInt16)
    (internalIp : List UInt8) (internalPort : UInt16) (description : List UInt8) : Client ℤ := do
  storeContent (upnpXmlAddPort contBufferSize protocol externalPort internalIp internalPort
    description ++ [0])
  portAction charSigned .addPort UpnpAction.addPort.response

/-- `upnp_delete_port`. -/
def upnpDeletePort (charSigned : Bool) (protocol : List UInt8) (externalPort : UInt16) :
    Client ℤ := do
  storeContent (upnpXmlDeletePort contBufferSize protocol externalPort ++ [0])
  portAction charSigned .deletePort UpnpAction.deletePort.response

end WsmDriver.Upnp
