import ReplicatedConfig.Url

/-!
# Endpoints

An endpoint is where a replica of the store answers.  It is a URL with a host, and two
endpoints are one when their URLs are.
-/

namespace ReplicatedConfig

/-- Where a replica answers. -/
structure Endpoint where
  url : Url
  deriving DecidableEq

namespace Endpoint

/-- Reads an endpoint. -/
def parse (s : String) : Except Url.ParseError Endpoint := (Url.parse s).map Endpoint.mk

/-- The endpoint as one text. -/
def text (e : Endpoint) : String := e.url.text

/-- The host, which stands for the endpoint in logs and metrics. -/
def host (e : Endpoint) : String := e.url.host.text

end Endpoint

end ReplicatedConfig
