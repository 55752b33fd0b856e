import DualSeal.Http.Host
import DualSeal.Text.Duration

/-!
# HTTP messages

Requests and responses with the headers that matter here, and what may become of a request that is
sent. Sending and waiting are left to a transport.
-/

namespace DualSeal.Http

/-- A request. The target is the path, with a query behind it where there is one. -/
structure Request where
  method : String
  target : String
  contentType : Option String
  body : Bytes
  deriving DecidableEq

structure Status where
  code : Nat
  deriving DecidableEq, Repr

/-- The standard phrase of a status. -/
def Status.phrase? (status : Status) : Option String :=
  List.lookup status.code [
    (100, "Continue"), (101, "Switching Protocols"), (102, "Processing"), (103, "Early Hints"),
    (200, "OK"), (201, "Created"), (202, "Accepted"), (203, "Non Authoritative Information"),
    (204, "No Content"), (205, "Reset Content"), (206, "Partial Content"), (207, "Multi-Status"),
    (208, "Already Reported"), (226, "IM Used"), (300, "Multiple Choices"),
    (301, "Moved Permanently"), (302, "Found"), (303, "See Other"), (304, "Not Modified"),
    (305, "Use Proxy"), (307, "Temporary Redirect"), (308, "Permanent Redirect"),
    (400, "Bad Request"), (401, "Unauthorized"), (402, "Payment Required"), (403, "Forbidden"),
    (404, "Not Found"), (405, "Method Not Allowed"), (406, "Not Acceptable"),
    (407, "Proxy Authentication Required"), (408, "Request Timeout"), (409, "Conflict"),
    (410, "Gone"), (411, "Length Required"), (412, "Precondition Failed"),
    (413, "Payload Too Large"), (414, "URI Too Long"), (415, "Unsupported Media Type"),
    (416, "Range Not Satisfiable"), (417, "Expectation Failed"), (418, "I'm a teapot"),
    (421, "Misdirected Request"), (422, "Unprocessable Entity"), (423, "Locked"),
    (424, "Failed Dependency"), (425, "Too Early"), (426, "Upgrade Required"),
    (428, "Precondition Required"), (429, "Too Many Requests"),
    (431, "Request Header Fields Too Large"), (451, "Unavailable For Legal Reasons"),
    (500, "Internal Server Error"), (501, "Not Implemented"), (502, "Bad Gateway"),
    (503, "Service Unavailable"), (504, "Gateway Timeout"), (505, "HTTP Version Not Supported"),
    (506, "Variant Also Negotiates"), (507, "Insufficient Storage"), (508, "Loop Detected"),
    (510, "Not Extended"), (511, "Network Authentication Required")]

def Status.text (status : Status) : String :=
  toString status.code ++ " " ++ status.phrase?.getD "<unknown status code>"

/-- The request was understood and accepted. -/
def Status.isSuccess (status : Status) : Bool := status.code / 100 = 2

/-- The request is at fault. -/
def Status.isClientError (status : Status) : Bool := status.code / 100 = 4

/-- The server is at fault. -/
def Status.isServerError (status : Status) : Bool := status.code / 100 = 5

structure Response where
  status : Status
  contentType : Option String
  /-- The methods that the target takes, where the request came with another. -/
  allow : Option String
  body : Bytes
  deriving DecidableEq

def plainText : String := "text/plain; charset=utf-8"

def jsonType : String := "application/json"

def Response.ofText (code : Nat) (text : String) : Response :=
  ⟨⟨code⟩, some plainText, none, Utf8.encodeString text⟩

def Response.ofJson (code : Nat) (document : String) : Response :=
  ⟨⟨code⟩, some jsonType, none, Utf8.encodeString document⟩

def Response.bare (code : Nat) : Response := ⟨⟨code⟩, none, none, []⟩

/-- What becomes of a request that is sent. -/
inductive Exchange where
  /-- No connection came about. -/
  | refused
  /-- No answer came in time. -/
  | timedOut
  /-- The connection ended without an answer. -/
  | dropped
  | answered (response : Response)
  deriving DecidableEq

/-- That a request was not delivered, in words. -/
def undelivered (url : String) : String := "error sending request for url (" ++ url ++ ")"

/-- That a URL cannot be called, in words. -/
def uncallable : String := "builder error"

/-- That the body of an answer was not understood, in words. -/
def undecodable : String := "error decoding response body"

/-- A way to send requests to a host, and to wait, acting in `m`. It brings the spelling of names
with which hosts are found. -/
structure Transport (m : Type → Type) where
  spelling : NameSpelling
  send : (timeout : Milliseconds) → (host : String) → Request → m Exchange
  pause : Milliseconds → m Unit

end DualSeal.Http
