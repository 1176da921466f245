import DailyBars.Number.Reader
import DailyBars.Source.Query
import DailyBars.Text.Basic

/-! # Status codes

What a status code is called, and what it says about a request for bars.
-/

namespace DailyBars.Http

/-- A status code, of three digits. -/
structure Status where
  code : Nat
deriving DecidableEq, Repr

namespace Status

/-- The names of the status codes that have one. -/
def reasons : List (Nat × String) := [
  (100, "Continue"), (101, "Switching Protocols"), (102, "Processing"), (103, "Early Hints"),
  (200, "OK"), (201, "Created"), (202, "Accepted"), (203, "Non Authoritative Information"),
  (204, "No Content"), (205, "Reset Content"), (206, "Partial Content"), (207, "Multi-Status"),
  (208, "Already Reported"), (226, "IM Used"),
  (300, "Multiple Choices"), (301, "Moved Permanently"), (302, "Found"), (303, "See Other"),
  (304, "Not Modified"), (305, "Use Proxy"), (307, "Temporary Redirect"),
  (308, "Permanent Redirect"),
  (400, "Bad Request"), (401, "Unauthorized"), (402, "Payment Required"), (403, "Forbidden"),
  (404, "Not Found"), (405, "Method Not Allowed"), (406, "Not Acceptable"),
  (407, "Proxy Authentication Required"), (408, "Request Timeout"), (409, "Conflict"),
  (410, "Gone"), (411, "Length Required"), (412, "Precondition Failed"),
  (413, "Payload Too Large"), (414, "URI Too Long"), (415, "Unsupported Media Type"),
  (416, "Range Not Satisfiable"), (417, "Expectation Failed"), (418, "I'm a teapot"),
  (421, "Misdirected Request"), (422, "Unprocessable Entity"), (423, "Locked"),
  (424, "Failed Dependency"), (425, "Too Early"), (426, "Upgrade Required"),
  (428, "Precondition Required"), (429, "Too Many Requests"),
  (431, "Request Header Fields Too Large"), (451, "Unavailable For Legal Reasons"),
  (500, "Internal Server Error"), (501, "Not Implemented"), (502, "Bad Gateway"),
  (503, "Service Unavailable"), (504, "Gateway Timeout"), (505, "HTTP Version Not Supported"),
  (506, "Variant Also Negotiates"), (507, "Insufficient Storage"), (508, "Loop Detected"),
  (510, "Not Extended"), (511, "Network Authentication Required")]

/-- The number of a status with its name. -/
def text (s : Status) : String :=
  toString s.code ++ " " ++ (reasons.lookup s.code).getD "<unknown status code>"

/-- The request was served. -/
def isSuccess (s : Status) : Bool := 200 ≤ s.code && s.code < 300

/-- There is nothing at the address. -/
def isNotFound (s : Status) : Bool := s.code == 404

/-- The value of a header can be read as text: printable ASCII and tabs only. -/
def isReadable (value : String) : Bool :=
  value.toList.all fun c => c == '\t' || (0x20 ≤ c.toNat && c.toNat < 0x7F)

/-- How long a `Retry-After` header asks to wait. Only a number of seconds counts, not a
date. -/
def retryAfter? (value : String) : Option Duration :=
  (Number.readNat? (UInt64.size - 1) (Text.trim value)).map .ofSeconds

/-- What a status says about a request for the bars of a symbol; nothing when it was served.
A source that forbids the request is taken to have had enough of them for the day. -/
def failure? (s : Status) (retryAfter : Option String) (symbol : String) : Option Failure :=
  if s.isSuccess then none
  else if s.code = 429 then
    some (.rateLimited ((retryAfter.filter isReadable).bind retryAfter?))
  else if s.code = 403 then some (.rateLimited none)
  else if s.isNotFound then some (.notFound symbol)
  else some (.unavailable ("HTTP " ++ s.text ++ " for " ++ symbol))

end Status
end DailyBars.Http
